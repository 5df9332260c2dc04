import HostPrereqs.Proofs.Range.Admission

/-!
# Range — contradictions and canonical clauses

Which clauses the canonical form keeps, and what is lost with the others.

* `conflict?_eq_none_iff`: clauses do not contradict each other when every exact version is
  admitted by all of them and no lower bound is crossed with an upper one.  So a contradiction
  does not depend on the order or the spelling of clauses, and what is within clauses without a
  contradiction has none (`Within.conflict?_eq_none`).
* `Kept`: the clauses that no other makes superfluous.  The canonical clauses are the kept ones,
  each in one spelling (`kept_of_mem_canonical`, `Kept.exists_mem_canonical`).
* `admits_canonical_iff`: for final versions, nothing is lost.
-/

namespace HostPrereqs

/-- Where a comparison stands among canonical clauses. -/
def Comparison.place : Comparison → Nat
  | atLeast | above => 0
  | atMost | below  => 1
  | not             => 2
  | exactly         => 3

namespace Clause

open Version

variable {c d e m : Clause} {cs ds : List Clause} {v w : Version}

/-! ### The tightest bounds -/

/-- The best clause is one of the clauses, and none of them beats it. -/
theorem best_spec (beats : Clause → Clause → Bool)
    (hasymm : ∀ a b, beats a b = true → beats b a = false)
    (htrans : ∀ a b c, beats a b = false → beats b c = false → beats a c = false)
    (h : best beats cs = some m) : m ∈ cs ∧ ∀ c ∈ cs, beats m c = false := by
  have hirrefl : ∀ a, beats a a = false := fun a => by
    cases ha : beats a a with
    | false => rfl
    | true => exact (hasymm a a ha).symm.trans ha |>.symm
  cases cs with
  | nil => simp [best] at h
  | cons a cs =>
      obtain rfl := Option.some.inj h
      clear h
      -- the best so far is not beaten by what came before it
      induction cs generalizing a with
      | nil => simp [hirrefl]
      | cons b cs ih =>
          rw [List.foldl_cons]
          by_cases hab : beats a b = true
          · rw [if_pos hab]
            obtain ⟨hmem, hall⟩ := ih b
            refine ⟨List.mem_cons_of_mem a hmem, fun c hc => ?_⟩
            rcases List.mem_cons.1 hc with rfl | hc
            · exact htrans _ b _ (hall b List.mem_cons_self) (hasymm _ _ hab)
            · exact hall c hc
          · rw [if_neg hab]
            obtain ⟨hmem, hall⟩ := ih a
            have ha := hall a List.mem_cons_self
            refine ⟨?_, fun c hc => ?_⟩
            · rcases List.mem_cons.1 hmem with h | h
              · rw [h]
                exact List.mem_cons_self
              · exact List.mem_cons_of_mem a (List.mem_cons_of_mem b h)
            · rcases List.mem_cons.1 hc with rfl | hc
              · exact ha
              · rcases List.mem_cons.1 hc with rfl | hc
                · exact htrans _ a _ ha (Bool.eq_false_iff.2 hab)
                · exact hall c (List.mem_cons_of_mem a hc)

theorem best_eq_none {beats : Clause → Clause → Bool} (h : best beats cs = none) : cs = [] := by
  cases cs with
  | nil => rfl
  | cons c cs => simp [best] at h

/-- Of two minimums the later one is tighter, and of the same two the strict one. -/
theorem tighterLower_iff :
    tighterLower c d = true ↔ c.bound < d.bound ∨
      c.bound.same d.bound = true ∧ c.comparison ≠ .above ∧ d.comparison = .above := by
  simp [tighterLower, before_iff, and_assoc]

/-- Of two maximums the earlier one is tighter, and of the same two the strict one. -/
theorem tighterUpper_iff :
    tighterUpper c d = true ↔ d.bound < c.bound ∨
      c.bound.same d.bound = true ∧ c.comparison ≠ .below ∧ d.comparison = .below := by
  simp [tighterUpper, before_iff, and_assoc]

theorem tighterLower_asymm (h : tighterLower c d = true) : tighterLower d c = false := by
  rw [Bool.eq_false_iff]
  simp only [ne_eq, tighterLower_iff, same_iff_le] at *
  grind

theorem tighterLower_irrefl (c : Clause) : tighterLower c c = false := by
  by_cases h : tighterLower c c = true
  · exact tighterLower_asymm h
  · exact Bool.eq_false_iff.2 h

theorem tighterUpper_asymm (h : tighterUpper c d = true) : tighterUpper d c = false := by
  rw [Bool.eq_false_iff]
  simp only [ne_eq, tighterUpper_iff, same_iff_le] at *
  grind

theorem tighterUpper_irrefl (c : Clause) : tighterUpper c c = false := by
  by_cases h : tighterUpper c c = true
  · exact tighterUpper_asymm h
  · exact Bool.eq_false_iff.2 h

theorem not_tighterLower_trans (h : tighterLower c d = false) (h' : tighterLower d e = false) :
    tighterLower c e = false := by
  simp only [Bool.eq_false_iff] at *
  simp only [ne_eq, tighterLower_iff, same_iff_le] at *
  grind

theorem not_tighterUpper_trans (h : tighterUpper c d = false) (h' : tighterUpper d e = false) :
    tighterUpper c e = false := by
  simp only [Bool.eq_false_iff] at *
  simp only [ne_eq, tighterUpper_iff, same_iff_le] at *
  grind

theorem tighterLower_congr {c' d' : Clause} (hc : c.same c' = true) (hd : d.same d' = true) :
    tighterLower c d = tighterLower c' d' := by
  obtain ⟨hcc, hcb⟩ := same_iff_comparison.1 hc
  obtain ⟨hdc, hdb⟩ := same_iff_comparison.1 hd
  rw [Bool.eq_iff_iff, tighterLower_iff, tighterLower_iff, lt_congr hcb hdb, same_congr hcb hdb,
    hcc, hdc]

theorem tighterUpper_congr {c' d' : Clause} (hc : c.same c' = true) (hd : d.same d' = true) :
    tighterUpper c d = tighterUpper c' d' := by
  obtain ⟨hcc, hcb⟩ := same_iff_comparison.1 hc
  obtain ⟨hdc, hdb⟩ := same_iff_comparison.1 hd
  rw [Bool.eq_iff_iff, tighterUpper_iff, tighterUpper_iff, lt_congr hdb hcb, same_congr hcb hdb,
    hcc, hdc]

/-- Two lower bounds of which none is tighter are the same. -/
theorem same_of_not_tighterLower (hc : c.comparison.isLower = true)
    (hd : d.comparison.isLower = true) (h : tighterLower c d = false)
    (h' : tighterLower d c = false) : c.same d = true := by
  simp only [Bool.eq_false_iff, ne_eq, tighterLower_iff, same_iff_le] at h h'
  simp only [Comparison.isLower, Bool.or_eq_true, decide_eq_true_eq] at hc hd
  rw [same_iff_comparison, same_iff_le]
  grind

/-- Two upper bounds of which none is tighter are the same. -/
theorem same_of_not_tighterUpper (hc : c.comparison.isUpper = true)
    (hd : d.comparison.isUpper = true) (h : tighterUpper c d = false)
    (h' : tighterUpper d c = false) : c.same d = true := by
  simp only [Bool.eq_false_iff, ne_eq, tighterUpper_iff, same_iff_le] at h h'
  simp only [Comparison.isUpper, Bool.or_eq_true, decide_eq_true_eq] at hc hd
  rw [same_iff_comparison, same_iff_le]
  grind

/-- The lowest bound is a minimum that no other one is tighter than. -/
theorem lowest?_spec (h : lowest? cs = some m) :
    m ∈ cs ∧ m.comparison.isLower = true ∧
      ∀ c ∈ cs, c.comparison.isLower = true → tighterLower m c = false := by
  obtain ⟨hmem, hall⟩ := best_spec tighterLower (fun _ _ => tighterLower_asymm)
    (fun _ _ _ => not_tighterLower_trans) h
  obtain ⟨hm, hlow⟩ := List.mem_filter.1 hmem
  exact ⟨hm, hlow, fun c hc hl => hall c (List.mem_filter.2 ⟨hc, hl⟩)⟩

/-- The highest bound is a maximum that no other one is tighter than. -/
theorem highest?_spec (h : highest? cs = some m) :
    m ∈ cs ∧ m.comparison.isUpper = true ∧
      ∀ c ∈ cs, c.comparison.isUpper = true → tighterUpper m c = false := by
  obtain ⟨hmem, hall⟩ := best_spec tighterUpper (fun _ _ => tighterUpper_asymm)
    (fun _ _ _ => not_tighterUpper_trans) h
  obtain ⟨hm, hup⟩ := List.mem_filter.1 hmem
  exact ⟨hm, hup, fun c hc hu => hall c (List.mem_filter.2 ⟨hc, hu⟩)⟩

theorem exists_lowest? (hc : c ∈ cs) (h : c.comparison.isLower = true) :
    ∃ m, lowest? cs = some m := by
  cases hm : lowest? cs with
  | some m => exact ⟨m, rfl⟩
  | none =>
      have hmem : c ∈ cs.filter (·.comparison.isLower) := List.mem_filter.2 ⟨hc, h⟩
      rw [best_eq_none hm] at hmem
      cases hmem

theorem exists_highest? (hc : c ∈ cs) (h : c.comparison.isUpper = true) :
    ∃ m, highest? cs = some m := by
  cases hm : highest? cs with
  | some m => exact ⟨m, rfl⟩
  | none =>
      have hmem : c ∈ cs.filter (·.comparison.isUpper) := List.mem_filter.2 ⟨hc, h⟩
      rw [best_eq_none hm] at hmem
      cases hmem

/-! ### Contradictions -/

/-- Bounds are crossed if they are in the wrong order, or the same and one of them strict. -/
theorem crossed_iff : crossed c d = true ↔ d.bound < c.bound ∨
    c.bound.same d.bound = true ∧ (c.comparison = .above ∨ d.comparison = .below) := by
  simp [crossed, before_iff]

/-- Tighter bounds are crossed if looser ones are. -/
theorem crossed_tighter {low low' high high' : Clause} (hlow : tighterLower low low' = false)
    (hhigh : tighterUpper high high' = false) (h : crossed low high = false) :
    crossed low' high' = false := by
  simp only [Bool.eq_false_iff] at *
  simp only [ne_eq, tighterLower_iff, tighterUpper_iff, crossed_iff, same_iff_le] at *
  grind

theorem crossed_congr {c' d' : Clause} (hc : c.same c' = true) (hd : d.same d' = true) :
    crossed c d = crossed c' d' := by
  obtain ⟨hcc, hcb⟩ := same_iff_comparison.1 hc
  obtain ⟨hdc, hdb⟩ := same_iff_comparison.1 hd
  rw [Bool.eq_iff_iff, crossed_iff, crossed_iff, lt_congr hdb hcb, same_congr hcb hdb, hcc, hdc]

theorem mem_pins : c ∈ pins cs ↔ c ∈ cs ∧ c.comparison = .exactly := by
  simp [pins]

theorem pins_eq_nil_iff : pins cs = [] ↔ ∀ c ∈ cs, c.comparison ≠ .exactly := by
  simp [pins, List.filter_eq_nil_iff]

/-- Two exact versions that admit each other's bounds are the same. -/
theorem same_of_admits (hc : c.comparison = .exactly) (hd : d.comparison = .exactly)
    (hcd : c.admits d.bound = true) (hdc : d.admits c.bound = true) :
    c.bound.same d.bound = true := by
  rw [admits_exactly hc, matchesBound] at hcd
  rw [admits_exactly hd, matchesBound] at hdc
  -- a bound with a local part is compared in full, and then the two are the same
  by_cases hl : c.bound.localPart = []
  · by_cases hl' : d.bound.localPart = []
    · rw [if_pos (List.isEmpty_iff.2 hl), withoutLocal_eq hl'] at hcd
      exact same_symm hcd
    · rwa [if_neg (mt List.isEmpty_iff.1 hl')] at hdc
  · rw [if_neg (mt List.isEmpty_iff.1 hl)] at hcd
    exact same_symm hcd

theorem conflict?_of_pin {pin : Clause} {more : List Clause} (hp : pins cs = pin :: more) :
    conflict? cs = none ↔
      (∀ p ∈ more, p.bound.same pin.bound = true) ∧ ∀ c ∈ cs, c.admits pin.bound = true := by
  simp only [conflict?, hp]
  constructor
  · intro h
    split at h
    · cases h
    rename_i hsame
    split at h
    · rename_i hall
      refine ⟨fun p hmem => ?_, List.all_eq_true.1 hall⟩
      cases hs : p.bound.same pin.bound with
      | true => rfl
      | false => exact absurd (List.any_eq_true.2 ⟨p, hmem, by simp [hs]⟩) hsame
    · cases h
  · rintro ⟨hsame, hall⟩
    rw [if_neg, if_pos (List.all_eq_true.2 hall)]
    rw [List.any_eq_true]
    rintro ⟨p, hmem, h⟩
    simp [hsame p hmem] at h

/-- Without exact versions a conflict is a minimum and a maximum that are crossed. -/
theorem conflict?_of_unpinned (hp : pins cs = []) :
    conflict? cs = none ↔
      ∀ low ∈ cs, ∀ high ∈ cs, low.comparison.isLower = true → high.comparison.isUpper = true →
        crossed low high = false := by
  simp only [conflict?, hp]
  -- only the tightest bounds are compared, and all others are looser
  constructor
  · intro h low hlow high hhigh hl hu
    obtain ⟨lo, hlo⟩ := exists_lowest? hlow hl
    obtain ⟨hi, hhi⟩ := exists_highest? hhigh hu
    obtain ⟨-, -, hlot⟩ := lowest?_spec hlo
    obtain ⟨-, -, hit⟩ := highest?_spec hhi
    rw [hlo, hhi] at h
    simp only [ite_eq_right_iff, reduceCtorEq, imp_false, Bool.not_eq_true] at h
    exact crossed_tighter (hlot low hlow hl) (hit high hhigh hu) h
  · intro hcross
    split
    · rename_i lo hi hlo hhi
      obtain ⟨hlom, hlol, -⟩ := lowest?_spec hlo
      obtain ⟨him, hiu, -⟩ := highest?_spec hhi
      rw [if_neg (by simp [hcross lo hlom hi him hlol hiu])]
    · rfl

/-- Clauses contradict each other unless every exact version is admitted by all of them and no
lower bound is crossed with an upper one. -/
theorem conflict?_eq_none_iff : conflict? cs = none ↔
    (∀ p ∈ cs, p.comparison = .exactly → ∀ c ∈ cs, c.admits p.bound = true) ∧
      ∀ low ∈ cs, ∀ high ∈ cs, low.comparison.isLower = true → high.comparison.isUpper = true →
        crossed low high = false := by
  cases hp : pins cs with
  | nil =>
      have hnone := pins_eq_nil_iff.1 hp
      rw [conflict?_of_unpinned hp]
      exact ⟨fun h => ⟨fun p hpcs hpe => absurd hpe (hnone p hpcs), h⟩, fun h => h.2⟩
  | cons pin more =>
      obtain ⟨hpin, hexact⟩ := mem_pins.1 (hp ▸ List.mem_cons_self : pin ∈ pins cs)
      -- a version that all clauses admit lies between any two bounds
      rw [conflict?_of_pin hp]
      constructor
      · rintro ⟨hsame, hall⟩
        refine ⟨fun p hpcs hpe c hc => ?_, fun low hlow high hhigh hl hu =>
          not_crossed_of_admits hl hu (hall low hlow) (hall high hhigh)⟩
        have hbound : p.bound.same pin.bound = true := by
          have hmem : p ∈ pins cs := mem_pins.2 ⟨hpcs, hpe⟩
          rw [hp] at hmem
          rcases List.mem_cons.1 hmem with rfl | hmem
          · exact same_refl _
          · exact hsame p hmem
        rw [admits_congr (same_self c) hbound]
        exact hall c hc
      · rintro ⟨hall, -⟩
        refine ⟨fun p hmem => ?_, hall pin hpin hexact⟩
        obtain ⟨hpcs, hpe⟩ := mem_pins.1 (hp ▸ List.mem_cons_of_mem pin hmem : p ∈ pins cs)
        exact same_of_admits hpe hexact (hall pin hpin hexact p hpcs) (hall p hpcs hpe pin hpin)

/-- What is within clauses without a contradiction has none. -/
theorem Within.conflict?_eq_none (h : Within ds cs) (hcs : conflict? cs = none) :
    conflict? ds = none := by
  obtain ⟨hpins, hcross⟩ := conflict?_eq_none_iff.1 hcs
  rw [conflict?_eq_none_iff]
  constructor
  · intro p hp hexact
    obtain ⟨p', hp', hpp⟩ := h p hp
    obtain ⟨hcmp, hb⟩ := same_iff_comparison.1 hpp
    refine h.admits fun c hc => ?_
    rw [← admits_congr (same_self c) hb]
    exact hpins p' hp' (hcmp ▸ hexact) c hc
  · intro low hlow high hhigh hl hu
    obtain ⟨low', hlow', hll⟩ := h low hlow
    obtain ⟨high', hhigh', hhh⟩ := h high hhigh
    have hlc := (same_iff_comparison.1 hll).1
    have hhc := (same_iff_comparison.1 hhh).1
    rw [← crossed_congr hll hhh]
    exact hcross low' hlow' high' hhigh' (hlc ▸ hl) (hhc ▸ hu)

/-! ### The kept clauses -/

/-- No clause of `cs` makes `c` superfluous: besides an exact version nothing is kept, and a
bound is kept where no other is tighter. -/
structure Kept (cs : List Clause) (c : Clause) : Prop where
  mem : c ∈ cs
  unpinned : c.comparison ≠ .exactly → ∀ d ∈ cs, d.comparison ≠ .exactly
  lowest : c.comparison.isLower = true → ∀ d ∈ cs, d.comparison.isLower = true →
    tighterLower c d = false
  highest : c.comparison.isUpper = true → ∀ d ∈ cs, d.comparison.isUpper = true →
    tighterUpper c d = false

/-- Where versions are exact nothing else is canonical. -/
theorem canonical_of_pinned (hp : pins cs ≠ []) : canonical cs = pins cs := by
  unfold canonical
  split
  · rename_i h
    exact absurd h hp
  · rfl

theorem mem_canonical_of_unpinned (hp : pins cs = []) :
    c ∈ canonical cs ↔
      lowest? cs = some c ∨ highest? cs = some c ∨ c ∈ cs ∧ c.comparison = .not := by
  simp [canonical, hp]

/-- Without exact versions, a lower bound stays that is as tight as any. -/
theorem exists_lower_mem_canonical (hp : pins cs = []) (hc : c ∈ cs)
    (hl : c.comparison.isLower = true) :
    ∃ m ∈ canonical cs, m.comparison.isLower = true ∧ tighterLower m c = false := by
  obtain ⟨m, hm⟩ := exists_lowest? hc hl
  obtain ⟨-, hml, hall⟩ := lowest?_spec hm
  exact ⟨m, (mem_canonical_of_unpinned hp).2 (.inl hm), hml, hall c hc hl⟩

theorem exists_upper_mem_canonical (hp : pins cs = []) (hc : c ∈ cs)
    (hu : c.comparison.isUpper = true) :
    ∃ m ∈ canonical cs, m.comparison.isUpper = true ∧ tighterUpper m c = false := by
  obtain ⟨m, hm⟩ := exists_highest? hc hu
  obtain ⟨-, hmu, hall⟩ := highest?_spec hm
  exact ⟨m, (mem_canonical_of_unpinned hp).2 (.inr (.inl hm)), hmu, hall c hc hu⟩

theorem place_of_isLower (h : c.comparison.isLower = true) : c.comparison.place = 0 := by
  cases hc : c.comparison <;> simp [hc, Comparison.isLower] at h <;> rfl

theorem place_of_isUpper (h : c.comparison.isUpper = true) : c.comparison.place = 1 := by
  cases hc : c.comparison <;> simp [hc, Comparison.isUpper] at h <;> rfl

/-- The exclusions among clauses, in the order of their bounds. -/
def exclusions (cs : List Clause) : List Clause :=
  (cs.filter (·.comparison = .not)).mergeSort fun a b => a.bound.upTo b.bound

/-- Otherwise the lowest and the highest bound are, and the exclusions that are left. -/
theorem canonical_of_unpinned (hp : pins cs = []) :
    canonical cs = (lowest? cs).toList ++ (highest? cs).toList ++ exclusions cs := by
  simp only [canonical, hp]
  rfl

theorem not_of_mem_exclusions (h : c ∈ exclusions cs) : c.comparison = .not := by
  simpa using (List.mem_filter.1 ((List.mergeSort_perm _ _).mem_iff.1 h)).2

/-- Without exact versions, the canonical clauses stand in order of their comparisons, and the
exclusions in the order of their bounds. -/
theorem pairwise_canonical {R : Clause → Clause → Prop} (hp : pins cs = [])
    (hplace : ∀ {a b : Clause}, a.comparison.place < b.comparison.place → R a b)
    (hexcluded : (exclusions cs).Pairwise R) : (canonical cs).Pairwise R := by
  rw [canonical_of_unpinned hp, List.append_assoc, List.pairwise_append, List.pairwise_append]
  have hlow : ∀ a ∈ (lowest? cs).toList, a.comparison.place = 0 := fun a ha =>
    place_of_isLower (lowest?_spec (Option.mem_toList.1 ha)).2.1
  have hhigh : ∀ a ∈ (highest? cs).toList, a.comparison.place = 1 := fun a ha =>
    place_of_isUpper (highest?_spec (Option.mem_toList.1 ha)).2.1
  have hnot : ∀ a ∈ exclusions cs, a.comparison.place = 2 := fun a ha => by
    rw [not_of_mem_exclusions ha]
    rfl
  refine ⟨?_, ⟨?_, hexcluded, fun a ha b hb => hplace ?_⟩, fun a ha b hb => hplace ?_⟩
  · cases lowest? cs <;> simp
  · cases highest? cs <;> simp
  · rw [hhigh a ha, hnot b hb]
    decide
  · rcases List.mem_append.1 hb with hb | hb
    · rw [hlow a ha, hhigh b hb]
      decide
    · rw [hlow a ha, hnot b hb]
      decide

theorem kept_of_mem_canonical (h : c ∈ canonical cs) : Kept cs c := by
  by_cases hp : pins cs = []
  · have hnone := pins_eq_nil_iff.1 hp
    rcases (mem_canonical_of_unpinned hp).1 h with h | h | ⟨h, hcmp⟩
    · obtain ⟨hmem, hl, hall⟩ := lowest?_spec h
      refine ⟨hmem, fun _ => hnone, fun _ => hall, fun hu => ?_⟩
      cases hcmp : c.comparison <;> simp [hcmp, Comparison.isLower, Comparison.isUpper] at hl hu
    · obtain ⟨hmem, hu, hall⟩ := highest?_spec h
      refine ⟨hmem, fun _ => hnone, fun hl => ?_, fun _ => hall⟩
      cases hcmp : c.comparison <;> simp [hcmp, Comparison.isLower, Comparison.isUpper] at hl hu
    · exact ⟨h, fun _ => hnone, by simp [hcmp, Comparison.isLower],
        by simp [hcmp, Comparison.isUpper]⟩
  · rw [canonical_of_pinned hp, mem_pins] at h
    exact ⟨h.1, fun hne => absurd h.2 hne, by simp [h.2, Comparison.isLower],
      by simp [h.2, Comparison.isUpper]⟩

theorem mem_of_mem_canonical (h : c ∈ canonical cs) : c ∈ cs := (kept_of_mem_canonical h).mem

/-- Of whatever clause there is, one of its kind stays. -/
theorem canonical_eq_nil_iff : canonical cs = [] ↔ cs = [] := by
  refine ⟨fun h => List.eq_nil_iff_forall_not_mem.2 fun c hc => ?_, fun h =>
    List.eq_nil_iff_forall_not_mem.2 fun c hc => List.not_mem_nil (h ▸ mem_of_mem_canonical hc)⟩
  have hnone : ∀ m : Clause, m ∉ canonical cs := fun m hm => List.not_mem_nil (h ▸ hm)
  by_cases hp : pins cs = []
  · cases hcmp : c.comparison with
    | exactly => exact pins_eq_nil_iff.1 hp c hc hcmp
    | not => exact hnone c ((mem_canonical_of_unpinned hp).2 (.inr (.inr ⟨hc, hcmp⟩)))
    | atLeast | above =>
        obtain ⟨m, hm, -⟩ := exists_lower_mem_canonical hp hc (by simp [hcmp, Comparison.isLower])
        exact hnone m hm
    | atMost | below =>
        obtain ⟨m, hm, -⟩ := exists_upper_mem_canonical hp hc (by simp [hcmp, Comparison.isUpper])
        exact hnone m hm
  · obtain ⟨p, hmem⟩ := List.exists_mem_of_ne_nil _ hp
    exact hnone p (canonical_of_pinned hp ▸ hmem)

/-- Every clause that is kept is, up to spelling, a canonical one. -/
theorem Kept.exists_mem_canonical (h : Kept cs c) : ∃ d ∈ canonical cs, d.same c = true := by
  by_cases hp : pins cs = []
  · have hnone := pins_eq_nil_iff.1 hp
    cases hcmp : c.comparison with
    | exactly => exact absurd hcmp (hnone c h.mem)
    | not => exact ⟨c, (mem_canonical_of_unpinned hp).2 (.inr (.inr ⟨h.mem, hcmp⟩)), same_self c⟩
    | atLeast | above =>
        have hl : c.comparison.isLower = true := by simp [hcmp, Comparison.isLower]
        obtain ⟨m, hm, hml, ht⟩ := exists_lower_mem_canonical hp h.mem hl
        have hback := h.lowest hl m (mem_of_mem_canonical hm) hml
        exact ⟨m, hm, same_of_not_tighterLower hml hl ht hback⟩
    | atMost | below =>
        have hu : c.comparison.isUpper = true := by simp [hcmp, Comparison.isUpper]
        obtain ⟨m, hm, hmu, ht⟩ := exists_upper_mem_canonical hp h.mem hu
        have hback := h.highest hu m (mem_of_mem_canonical hm) hmu
        exact ⟨m, hm, same_of_not_tighterUpper hmu hu ht hback⟩
  · obtain ⟨p, hmem⟩ := List.exists_mem_of_ne_nil _ hp
    obtain ⟨hpcs, hexact⟩ := mem_pins.1 hmem
    have hcmp : c.comparison = .exactly := Decidable.byContradiction fun hne =>
      h.unpinned hne p hpcs hexact
    rw [canonical_of_pinned hp]
    exact ⟨c, mem_pins.2 ⟨h.mem, hcmp⟩, same_self c⟩

/-! ### Final versions -/

theorem admits_above_of_isFinal (h : c.comparison = .above) (hv : v.isFinal = true) :
    c.admits v = true ↔ c.bound < v := by
  obtain ⟨-, hpost, -, hlocal⟩ := isFinal_iff.1 hv
  rw [admits_above h, withoutLocal_eq hlocal]
  simp [isPostReleaseOf, hpost]

theorem admits_atMost_of_isFinal (h : c.comparison = .atMost) (hv : v.isFinal = true) :
    c.admits v = true ↔ v ≤ c.bound := by
  rw [admits_atMost h, withoutLocal_eq (isFinal_iff.1 hv).2.2.2]

theorem admits_below_of_isFinal (h : c.comparison = .below) (hv : v.isFinal = true) :
    c.admits v = true ↔ v < c.bound := by
  rw [admits_below h, lt_earliest_iff hv (localPart_bound (by rw [h]; rfl))]

theorem same_bound_of_isFinal (h : c.comparison = .exactly) (hv : v.isFinal = true)
    (hc : c.admits v = true) : v.same c.bound = true := by
  rw [admits_exactly h, matchesBound, withoutLocal_eq (isFinal_iff.1 hv).2.2.2] at hc
  simpa using hc

/-- A final version that the tightest lower bound admits is admitted by every other. -/
theorem admits_of_not_tighterLower (hv : v.isFinal = true) (hm : m.comparison.isLower = true)
    (hc : c.comparison.isLower = true) (ht : tighterLower m c = false)
    (h : m.admits v = true) : c.admits v = true := by
  rw [Bool.eq_false_iff, ne_eq, tighterLower_iff, same_iff_le] at ht
  cases hmc : m.comparison <;> cases hcc : c.comparison <;>
    simp only [hmc, hcc, Comparison.isLower, Bool.or_eq_true, decide_eq_true_eq, reduceCtorEq,
      or_self] at hm hc <;>
    simp only [admits_atLeast, admits_above_of_isFinal, hmc, hcc, hv] at h ⊢ <;> grind

/-- A final version that the tightest upper bound admits is admitted by every other. -/
theorem admits_of_not_tighterUpper (hv : v.isFinal = true) (hm : m.comparison.isUpper = true)
    (hc : c.comparison.isUpper = true) (ht : tighterUpper m c = false)
    (h : m.admits v = true) : c.admits v = true := by
  rw [Bool.eq_false_iff, ne_eq, tighterUpper_iff, same_iff_le] at ht
  cases hmc : m.comparison <;> cases hcc : c.comparison <;>
    simp only [hmc, hcc, Comparison.isUpper, Bool.or_eq_true, decide_eq_true_eq, reduceCtorEq,
      or_self] at hm hc <;>
    simp only [admits_atMost_of_isFinal, admits_below_of_isFinal, hmc, hcc, hv] at h ⊢ <;> grind

/-- The canonical clauses admit the final versions that all clauses admit. -/
theorem admits_canonical_iff (hcs : conflict? cs = none) (hv : v.isFinal = true) :
    (∀ c ∈ canonical cs, c.admits v = true) ↔ ∀ c ∈ cs, c.admits v = true := by
  refine ⟨fun h c hc => ?_, fun h c hc => h c (mem_of_mem_canonical hc)⟩
  by_cases hp : pins cs = []
  · cases hcmp : c.comparison with
    | exactly => exact absurd hcmp (pins_eq_nil_iff.1 hp c hc)
    | not => exact h c ((mem_canonical_of_unpinned hp).2 (.inr (.inr ⟨hc, hcmp⟩)))
    | atLeast | above =>
        have hl : c.comparison.isLower = true := by simp [hcmp, Comparison.isLower]
        obtain ⟨m, hm, hml, ht⟩ := exists_lower_mem_canonical hp hc hl
        exact admits_of_not_tighterLower hv hml hl ht (h m hm)
    | atMost | below =>
        have hu : c.comparison.isUpper = true := by simp [hcmp, Comparison.isUpper]
        obtain ⟨m, hm, hmu, ht⟩ := exists_upper_mem_canonical hp hc hu
        exact admits_of_not_tighterUpper hv hmu hu ht (h m hm)
  · -- the version is the exact one, which every clause admits
    obtain ⟨p, hmem⟩ := List.exists_mem_of_ne_nil _ hp
    obtain ⟨hpcs, hexact⟩ := mem_pins.1 hmem
    have hpv := same_bound_of_isFinal hexact hv (h p (canonical_of_pinned hp ▸ hmem))
    rw [admits_congr (same_self c) hpv]
    exact (conflict?_eq_none_iff.1 hcs).1 p hpcs hexact c hc

end Clause

end HostPrereqs
