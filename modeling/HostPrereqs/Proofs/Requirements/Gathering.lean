import HostPrereqs.Proofs.Range.Joining
import HostPrereqs.Proofs.Range.Loosening
import HostPrereqs.Proofs.Requirements.Slots

/-!
# Requirements — gathering the ranges of a slot

Adding items to requirements, looked at from one slot, goes through the ranges that the items
give the slot: the first is kept as it is written, and each later one is intersected with what
there is (`gather`).  `foldlM_add_at?` and `exists_foldlM_add_iff` split a run of additions into
the slots.

Gathered texts denote joined clauses (`gather_some_spec`); so gathering succeeds exactly if
joining does (`exists_gather_iff`), and the text that comes out lets in the final versions that
all the gathered texts let in (`satisfies_gather_iff`).
-/

namespace HostPrereqs

namespace Range

/-- The clauses of the range that a text denotes. -/
def clausesOf (text : String) : List Clause :=
  match parse text with
  | .ok r => r.clauses
  | .error _ => []

theorem clausesOf_eq {text : String} {r : Range} (h : parse text = .ok r) :
    clausesOf text = r.clauses := by
  rw [clausesOf, h]

theorem conflict?_clausesOf (text : String) : Clause.conflict? (clausesOf text) = none := by
  unfold clausesOf
  split
  · rename_i r _
    exact r.consistent
  · rfl

/-- A range lets in the texts that denote versions which all its clauses admit; without clauses it
lets in every text. -/
theorem satisfies_iff {text v : String} (h : Readable text) :
    satisfies v text = .ok true ↔ clausesOf text = [] ∨
      ∃ w, Version.parse? v = some w ∧ ∀ c ∈ clausesOf text, c.admits w = true := by
  obtain ⟨r, hr⟩ := h
  have hsatisfies : satisfies v text = (r.accepts v).mapError (.hugeNumber · v) := by
    rw [satisfies, hr]
    rfl
  rw [hsatisfies, Result.mapError_eq_ok, clausesOf_eq hr]
  cases hv : Version.parse? v with
  | none => simp [accepts_of_parse?_none hv]
  | some w =>
      rw [accepts_of_parse? hv]
      constructor
      · exact fun h => .inr ⟨w, rfl, h⟩
      · rintro (hnil | ⟨w', hw, hall⟩)
        · simp [hnil]
        · obtain rfl := Option.some.inj hw
          exact hall

/-- A text that is not read as a version lies in the range without clauses only. -/
theorem satisfies_iff_of_not_parse? {text v : String} (h : Readable text)
    (hv : Version.parse? v = none) : satisfies v text = .ok true ↔ clausesOf text = [] := by
  rw [satisfies_iff h, hv]
  simp

theorem satisfies_iff_of_parse? {text v : String} {w : Version} (h : Readable text)
    (hv : Version.parse? v = some w) :
    satisfies v text = .ok true ↔ ∀ c ∈ clausesOf text, c.admits w = true := by
  rw [satisfies_iff h, hv]
  constructor
  · rintro (hnil | ⟨w', hw, hall⟩)
    · simp [hnil]
    · obtain rfl := Option.some.inj hw
      exact hall
  · exact fun hall => .inr ⟨w, rfl, hall⟩

/-- Texts that denote alike clauses let in the same. -/
theorem satisfies_congr {t u : String} (ht : Readable t) (hu : Readable u)
    (h : Clause.Alike (clausesOf t) (clausesOf u)) (v : String) :
    satisfies v t = .ok true ↔ satisfies v u = .ok true := by
  rw [satisfies_iff ht, satisfies_iff hu, h.eq_nil_iff]
  simp only [h.admits_iff]

end Range

namespace Requirements

open Range Clause

variable {t u v text : String} {us : List String} {r r' : Requirements} {s : Slot}

/-! ### Intersecting two texts -/

theorem intersectTexts_eq_ok {a b : Range} (ha : parse t = .ok a) (hb : parse u = .ok b) :
    intersectTexts t u = .ok text ↔
      ∃ x, ofClauses (a.clauses ++ b.clauses) = .ok x ∧ x.text = text := by
  have hsteps : intersectTexts t u = (a.intersect b).map Range.text := by
    rw [intersectTexts, ha, hb]
    rfl
  rw [hsteps, intersect, ofClausesOf, Result.map_eq_ok]
  simp only [Result.mapError_eq_ok]

/-- Two texts can be intersected when their clauses do not contradict each other. -/
theorem exists_intersectTexts_iff (ht : Readable t) (hu : Readable u) :
    (∃ text, intersectTexts t u = .ok text) ↔ conflict? (clausesOf t ++ clausesOf u) = none := by
  obtain ⟨a, ha⟩ := ht
  obtain ⟨b, hb⟩ := hu
  rw [clausesOf_eq ha, clausesOf_eq hb, ← (alike_distinct _).conflict?_iff]
  constructor
  · rintro ⟨text, h⟩
    obtain ⟨x, hx, -⟩ := (intersectTexts_eq_ok ha hb).1 h
    exact (ofClauses_spec hx) ▸ x.consistent
  · intro h
    obtain ⟨x, hx⟩ := exists_ofClauses h
    exact ⟨x.text, (intersectTexts_eq_ok ha hb).2 ⟨x, hx, rfl⟩⟩

/-- An intersection denotes the canonical clauses of both. -/
theorem intersectTexts_spec (ht : Readable t) (hu : Readable u)
    (h : intersectTexts t u = .ok text) : Readable text ∧
      Alike (clausesOf text) (canonical (clausesOf t ++ clausesOf u)) := by
  obtain ⟨a, ha⟩ := ht
  obtain ⟨b, hb⟩ := hu
  obtain ⟨x, hx, rfl⟩ := (intersectTexts_eq_ok ha hb).1 h
  have hread := parse_text x
  refine ⟨⟨x.reduced, hread⟩, ?_⟩
  rw [clausesOf_eq hread, clausesOf_eq ha, clausesOf_eq hb]
  change Alike (canonical x.clauses) _
  rw [ofClauses_spec hx]
  exact (alike_distinct _).canonical

/-- An intersection lets in the final versions that both texts let in, and the texts that are not
read as versions only if both let in everything. -/
theorem satisfies_intersectTexts_iff (ht : Readable t) (hu : Readable u)
    (h : intersectTexts t u = .ok text)
    (hv : ∀ w, Version.parse? v = some w → w.isFinal = true) :
    satisfies v text = .ok true ↔ satisfies v t = .ok true ∧ satisfies v u = .ok true := by
  obtain ⟨hread, halike⟩ := intersectTexts_spec ht hu h
  cases hw : Version.parse? v with
  | none =>
      rw [satisfies_iff_of_not_parse? hread hw, satisfies_iff_of_not_parse? ht hw,
        satisfies_iff_of_not_parse? hu hw, halike.eq_nil_iff, canonical_eq_nil_iff,
        List.append_eq_nil_iff]
  | some w =>
      have hnone := (exists_intersectTexts_iff ht hu).1 ⟨text, h⟩
      rw [satisfies_iff_of_parse? hread hw, satisfies_iff_of_parse? ht hw,
        satisfies_iff_of_parse? hu hw, halike.admits_iff, admits_canonical_iff hnone (hv w hw)]
      simp only [List.mem_append, or_imp, forall_and]

/-! ### Gathering texts -/

/-- The range of a slot after one more is added. -/
def join : Option String → String → Except RangeError String
  | none, u => .ok u
  | some t, u => intersectTexts t u

/-- Adds ranges to what a slot has, one after the other. -/
def gather (t : Option String) (us : List String) : Except RangeError (Option String) :=
  us.foldlM (fun t u => (join t u).map some) t

theorem gather_cons_eq_ok {o o' : Option String} :
    gather o (u :: us) = .ok o' ↔ ∃ text, join o u = .ok text ∧ gather (some text) us = .ok o' := by
  rw [gather, List.foldlM_cons]
  simp only [Result.bind_eq_ok, Result.map_eq_ok]
  constructor
  · rintro ⟨-, ⟨text, hjoin, rfl⟩, hrest⟩
    exact ⟨text, hjoin, hrest⟩
  · rintro ⟨text, hjoin, hrest⟩
    exact ⟨some text, ⟨text, hjoin, rfl⟩, hrest⟩

/-- Gathered texts denote joined clauses. -/
theorem gather_some_spec (ht : Readable t) (hus : ∀ u ∈ us, Readable u) {o : Option String}
    (h : gather (some t) us = .ok o) : ∃ text, o = some text ∧ Readable text ∧
      Alike (clausesOf text) (joined (clausesOf t) (us.map clausesOf)) := by
  induction us generalizing t with
  | nil => exact ⟨t, (Except.ok.inj h).symm, ht, Alike.refl _⟩
  | cons u us ih =>
      obtain ⟨t₁, hjoin, hrest⟩ := gather_cons_eq_ok.1 h
      obtain ⟨ht₁, halike⟩ := intersectTexts_spec ht (hus u List.mem_cons_self) hjoin
      obtain ⟨text, ho, hread, hjoined⟩ :=
        ih ht₁ (fun u' hu => hus u' (List.mem_cons_of_mem u hu)) hrest
      exact ⟨text, ho, hread, hjoined.trans halike.joined⟩

/-- Gathering succeeds exactly if joining the clauses does. -/
theorem exists_gather_iff (ht : Readable t) (hus : ∀ u ∈ us, Readable u) :
    (∃ o, gather (some t) us = .ok o) ↔ Joins (clausesOf t) (us.map clausesOf) := by
  induction us generalizing t with
  | nil => exact ⟨fun _ => trivial, fun _ => ⟨some t, rfl⟩⟩
  | cons u us ih =>
      have hu := hus u List.mem_cons_self
      have hus' : ∀ u ∈ us, Readable u := fun u' hu => hus u' (List.mem_cons_of_mem u hu)
      constructor
      · rintro ⟨o, h⟩
        obtain ⟨t₁, hjoin, hrest⟩ := gather_cons_eq_ok.1 h
        obtain ⟨ht₁, halike⟩ := intersectTexts_spec ht hu hjoin
        have hjoins := (ih ht₁ hus').1 ⟨o, hrest⟩
        exact ⟨(exists_intersectTexts_iff ht hu).1 ⟨t₁, hjoin⟩, hjoins.of_alike halike⟩
      · rintro ⟨hnone, hjoins⟩
        obtain ⟨t₁, hjoin⟩ := (exists_intersectTexts_iff ht hu).2 hnone
        obtain ⟨ht₁, halike⟩ := intersectTexts_spec ht hu hjoin
        obtain ⟨o, hrest⟩ := (ih ht₁ hus').2 (hjoins.of_alike halike.symm)
        exact ⟨o, gather_cons_eq_ok.2 ⟨t₁, hjoin, hrest⟩⟩

/-- Gathered texts let in the final versions that all of them let in, and a text that is not read
as a version only if all of them do. -/
theorem satisfies_gather_iff (ht : Readable t) (hus : ∀ u ∈ us, Readable u)
    (h : gather (some t) us = .ok (some text))
    (hv : ∀ w, Version.parse? v = some w → w.isFinal = true) :
    satisfies v text = .ok true ↔ ∀ u ∈ t :: us, satisfies v u = .ok true := by
  induction us generalizing t with
  | nil =>
      obtain rfl : t = text := Option.some.inj (Except.ok.inj h)
      simp
  | cons u us ih =>
      have hu := hus u List.mem_cons_self
      obtain ⟨t₁, hjoin, hrest⟩ := gather_cons_eq_ok.1 h
      obtain ⟨ht₁, -⟩ := intersectTexts_spec ht hu hjoin
      have hstep := satisfies_intersectTexts_iff ht hu hjoin hv
      rw [ih ht₁ (fun u' hu => hus u' (List.mem_cons_of_mem u hu)) hrest]
      simp only [List.forall_mem_cons, hstep, and_assoc]

/-! ### Adding items -/

/-- Adding an item joins its range to what its slot has. -/
theorem add_eq (r : Requirements) (item : Requirement) : r.add item = (do
    let range ← (join (r.at? item.slot) item.range).mapError
      (RangeError.inModule item.module item.phase item.relation)
    return r.put item.slot range) := by
  have hat : r.at? item.slot = (r.modules item.phase item.relation).get? item.module := rfl
  rw [add, hat]
  cases (r.modules item.phase item.relation).get? item.module <;> rfl

theorem add_eq_ok {item : Requirement} : r.add item = .ok r' ↔
    ∃ text, join (r.at? item.slot) item.range = .ok text ∧ r.put item.slot text = r' := by
  rw [add_eq, Result.bind_eq_ok]
  simp only [Result.mapError_eq_ok]
  constructor
  · rintro ⟨text, hjoin, hput⟩
    exact ⟨text, hjoin, Except.ok.inj hput⟩
  · rintro ⟨text, hjoin, rfl⟩
    exact ⟨text, hjoin, rfl⟩

theorem foldlM_add_cons_eq_ok {item : Requirement} {items : List Requirement} :
    (item :: items).foldlM add r = .ok r' ↔ ∃ text, join (r.at? item.slot) item.range = .ok text ∧
      items.foldlM add (r.put item.slot text) = .ok r' := by
  rw [List.foldlM_cons]
  simp only [Result.bind_eq_ok, add_eq_ok]
  constructor
  · rintro ⟨-, ⟨text, hjoin, rfl⟩, hrest⟩
    exact ⟨text, hjoin, hrest⟩
  · rintro ⟨text, hjoin, hrest⟩
    exact ⟨_, ⟨text, hjoin, rfl⟩, hrest⟩

theorem rangesAt_cons (s : Slot) (item : Requirement) (items : List Requirement) :
    rangesAt s (item :: items) =
      if item.slot = s then item.range :: rangesAt s items else rangesAt s items := by
  rw [rangesAt, List.flatMap_cons]
  split <;> rfl

/-- What a run of additions does to one slot. -/
theorem foldlM_add_at? {items : List Requirement} (h : items.foldlM add r = .ok r') (s : Slot) :
    gather (r.at? s) (rangesAt s items) = .ok (r'.at? s) := by
  induction items generalizing r with
  | nil => exact congrArg (fun r => Except.ok (r.at? s)) (Except.ok.inj h)
  | cons item items ih =>
      obtain ⟨text, hjoin, hrest⟩ := foldlM_add_cons_eq_ok.1 h
      have hat := ih hrest
      -- the item counts for its own slot only
      rw [at?_put] at hat
      rw [rangesAt_cons]
      by_cases hs : item.slot = s
      · subst hs
        rw [if_pos rfl] at hat ⊢
        exact gather_cons_eq_ok.2 ⟨text, hjoin, hat⟩
      · rw [if_neg (Ne.symm hs)] at hat
        rw [if_neg hs]
        exact hat

/-- A run of additions succeeds when it does for every slot. -/
theorem exists_foldlM_add_iff {items : List Requirement} :
    (∃ r', items.foldlM add r = .ok r') ↔
      ∀ s, ∃ o, gather (r.at? s) (rangesAt s items) = .ok o := by
  refine ⟨fun ⟨r', h⟩ s => ⟨r'.at? s, foldlM_add_at? h s⟩, fun h => ?_⟩
  induction items generalizing r with
  | nil => exact ⟨r, rfl⟩
  | cons item items ih =>
      -- the slot of the item can take its range, so the item can be added
      obtain ⟨o, ho⟩ := h item.slot
      rw [rangesAt_cons, if_pos rfl] at ho
      obtain ⟨text, hjoin, hrest⟩ := gather_cons_eq_ok.1 ho
      have hslots : ∀ s, ∃ o, gather ((r.put item.slot text).at? s) (rangesAt s items) = .ok o := by
        intro s
        rw [at?_put]
        by_cases hs : s = item.slot
        · subst hs
          rw [if_pos rfl]
          exact ⟨o, hrest⟩
        · have hos := h s
          rw [rangesAt_cons, if_neg (Ne.symm hs)] at hos
          rw [if_neg hs]
          exact hos
      obtain ⟨r', hr'⟩ := ih hslots
      exact ⟨r', foldlM_add_cons_eq_ok.2 ⟨text, hjoin, hr'⟩⟩

/-- What every addition keeps, a run of additions keeps. -/
theorem foldlM_add_keeps {C : Requirements → Prop} {P : String → Prop}
    (hadd : ∀ {r : Requirements} {item : Requirement} {text : String}, C r → P item.range →
      join (r.at? item.slot) item.range = .ok text → C (r.put item.slot text))
    {items : List Requirement} (h : C r) (hitems : ∀ item ∈ items, P item.range)
    (hr' : items.foldlM add r = .ok r') : C r' := by
  induction items generalizing r with
  | nil => exact Except.ok.inj hr' ▸ h
  | cons item items ih =>
      obtain ⟨hitem, hitems⟩ := List.forall_mem_cons.1 hitems
      obtain ⟨text, hjoin, hrest⟩ := foldlM_add_cons_eq_ok.1 hr'
      exact ih (hadd h hitem hjoin) hitems hrest

/-- The new range of a slot is that of the item, or an intersection with it. -/
theorem readable_join (h : r.Valid) (hu : Readable u) (hjoin : join (r.at? s) u = .ok text) :
    Readable text := by
  cases hat : r.at? s with
  | none =>
      rw [hat] at hjoin
      exact Except.ok.inj hjoin ▸ hu
  | some t =>
      rw [hat] at hjoin
      exact (intersectTexts_spec (h.readable_at hat) hu hjoin).1

/-- Additions of readable ranges keep requirements valid. -/
theorem Valid.foldlM_add {items : List Requirement} (h : r.Valid)
    (hitems : ∀ item ∈ items, Readable item.range) (hr' : items.foldlM add r = .ok r') :
    r'.Valid :=
  foldlM_add_keeps (fun hr hrange hjoin => hr.put _ (readable_join hr hrange hjoin)) h hitems hr'

theorem strip_intersectTexts (h : intersectTexts t u = .ok text) : Text.strip text = text := by
  unfold intersectTexts at h
  obtain ⟨a, -, h⟩ := Result.bind_eq_ok.1 h
  obtain ⟨b, -, h⟩ := Result.bind_eq_ok.1 h
  obtain ⟨x, -, h⟩ := Result.bind_eq_ok.1 h
  exact Except.ok.inj h ▸ strip_text x

/-- Additions of ranges that may be kept keep requirements tidy. -/
theorem Tidy.foldlM_add {items : List Requirement} (h : r.Tidy)
    (hitems : ∀ item ∈ items, Range.Kept item.range) (hr' : items.foldlM add r = .ok r') :
    r'.Tidy := by
  refine foldlM_add_keeps (fun {r item text} hr hrange hjoin => hr.put _ ⟨?_, ?_⟩) h hitems hr'
  · exact readable_join hr.valid hrange.readable hjoin
  · cases hat : r.at? item.slot with
    | none =>
        rw [hat] at hjoin
        exact Except.ok.inj hjoin ▸ hrange.stripped
    | some t =>
        rw [hat] at hjoin
        exact strip_intersectTexts hjoin

end Requirements

end HostPrereqs
