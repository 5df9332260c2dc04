import HostPrereqs.Proofs.Range.Canonical

/-!
# Range — joining clauses step by step

Lists of clauses are joined one after the other, and after each step only the canonical clauses
go on (`joined`).  Whatever is dropped on the way, the end is the same: the canonical clauses of
all (`joined_alike`).

Whether the steps succeed (`Joins`) is another matter.  A bound that is dropped can only be missed
when an exact version comes later.  So the lists before the first with an exact version are
compared with the others by their canonical clauses, and all the others in full.

* `joins_iff`: joining succeeds exactly if these clauses (`checked`) do not contradict each other.
* `Hides`: a contradiction that is found in one order and not in another
  (`Hides.checked_pinned_first`, `Hides.checked_unpinned_first`).  Unless there is one, every
  order finds every contradiction (`hides_of_checked`).
-/

namespace HostPrereqs.Clause

open Version

variable {c d p : Clause} {cs cs' ds ds' es : List Clause} {css dss : List (List Clause)}
variable {v : Version}

/-! ### Alike clauses -/

/-- The same clauses up to spelling, in whatever order and however often. -/
def Alike (cs ds : List Clause) : Prop := Within cs ds ∧ Within ds cs

theorem Alike.of_mem_iff (h : ∀ c, c ∈ cs ↔ c ∈ ds) : Alike cs ds :=
  ⟨Within.of_subset fun c => (h c).1, Within.of_subset fun c => (h c).2⟩

theorem Alike.refl (cs : List Clause) : Alike cs cs := .of_mem_iff fun _ => Iff.rfl

theorem Alike.symm (h : Alike cs ds) : Alike ds cs := ⟨h.2, h.1⟩

theorem Alike.trans (h : Alike cs ds) (h' : Alike ds es) : Alike cs es :=
  ⟨h.1.trans h'.1, h'.2.trans h.2⟩

theorem Alike.append (h : Alike cs cs') (h' : Alike ds ds') : Alike (cs ++ ds) (cs' ++ ds') :=
  ⟨h.1.append h'.1, h.2.append h'.2⟩

theorem Alike.eq_nil_iff (h : Alike cs ds) : cs = [] ↔ ds = [] := by
  have hnil : ∀ {as bs : List Clause}, Within as bs → bs = [] → as = [] := by
    rintro as _ hw rfl
    refine List.eq_nil_iff_forall_not_mem.2 fun a ha => ?_
    obtain ⟨b, hb, -⟩ := hw a ha
    cases hb
  exact ⟨hnil h.2, hnil h.1⟩

theorem Alike.admits_iff (h : Alike cs ds) :
    (∀ c ∈ cs, c.admits v = true) ↔ ∀ d ∈ ds, d.admits v = true :=
  ⟨h.2.admits, h.1.admits⟩

theorem Alike.conflict?_iff (h : Alike cs ds) : conflict? cs = none ↔ conflict? ds = none :=
  ⟨h.2.conflict?_eq_none, h.1.conflict?_eq_none⟩

theorem alike_distinct (cs : List Clause) : Alike (distinct cs) cs := by
  suffices h : ∀ kept : List Clause, Alike (cs.foldl
      (fun kept c => if kept.any (·.same c) then kept else kept ++ [c]) kept) (kept ++ cs) from
    h []
  -- by induction on the clauses, for whatever has been kept before them
  induction cs with
  | nil => intro kept; simpa using Alike.refl kept
  | cons c cs ih =>
      intro kept
      rw [List.foldl_cons]
      by_cases hc : kept.any (·.same c) = true
      · rw [if_pos hc]
        refine (ih kept).trans ⟨Within.of_subset (by grind), fun d hd => ?_⟩
        rcases List.mem_append.1 hd with hd | hd
        · exact ⟨d, List.mem_append_left cs hd, same_self d⟩
        · rcases List.mem_cons.1 hd with rfl | hd
          · obtain ⟨e, he, hed⟩ := List.any_eq_true.1 hc
            exact ⟨e, List.mem_append_left cs he, hed⟩
          · exact ⟨d, List.mem_append_right kept hd, same_self d⟩
      · rw [if_neg hc]
        exact (ih (kept ++ [c])).trans (.of_mem_iff (by simp))

/-! ### Canonical clauses go on -/

theorem Kept.of_within (h : Within ds cs) (hc : Kept cs c) (hd : d ∈ ds) (hdc : d.same c = true) :
    Kept ds d := by
  obtain ⟨hcmp, -⟩ := same_iff_comparison.1 hdc
  refine ⟨hd, fun hne e he => ?_, fun hl e he hel => ?_, fun hu e he heu => ?_⟩
  · obtain ⟨e', he', hee⟩ := h e he
    rw [← (same_iff_comparison.1 hee).1]
    exact hc.unpinned (hcmp ▸ hne) e' he'
  · obtain ⟨e', he', hee⟩ := h e he
    rw [tighterLower_congr hdc (same_comm hee)]
    exact hc.lowest (hcmp ▸ hl) e' he' ((same_iff_comparison.1 hee).1 ▸ hel)
  · obtain ⟨e', he', hee⟩ := h e he
    rw [tighterUpper_congr hdc (same_comm hee)]
    exact hc.highest (hcmp ▸ hu) e' he' ((same_iff_comparison.1 hee).1 ▸ heu)

theorem Alike.canonical (h : Alike cs ds) : Alike (canonical cs) (canonical ds) := by
  suffices hgen : ∀ {cs ds : List Clause}, Alike cs ds →
      Within (Clause.canonical cs) (Clause.canonical ds) from ⟨hgen h, hgen h.symm⟩
  intro cs ds h c hc
  have hkept := kept_of_mem_canonical hc
  obtain ⟨d, hd, hdc⟩ := h.1 c hkept.mem
  obtain ⟨e, he, hed⟩ := (hkept.of_within h.2 hd hdc).exists_mem_canonical
  exact ⟨e, he, same_tran hed hdc⟩

/-- An exact version stays. -/
theorem mem_canonical_of_exactly (hp : p ∈ cs) (he : p.comparison = .exactly) :
    p ∈ Clause.canonical cs := by
  have hmem : p ∈ pins cs := mem_pins.2 ⟨hp, he⟩
  rw [canonical_of_pinned (List.ne_nil_of_mem hmem)]
  exact hmem

theorem ne_exactly_of_isLower (h : c.comparison.isLower = true) : c.comparison ≠ .exactly := by
  intro he
  rw [he] at h
  cases h

theorem ne_exactly_of_isUpper (h : c.comparison.isUpper = true) : c.comparison ≠ .exactly := by
  intro he
  rw [he] at h
  cases h

/-- What is kept of canonical and other clauses is kept of all of them. -/
theorem Kept.of_canonical_append (h : Kept (Clause.canonical cs ++ ds) c) :
    Kept (cs ++ ds) c := by
  have hunpinned : c.comparison ≠ .exactly → ∀ d ∈ cs ++ ds, d.comparison ≠ .exactly := by
    intro hne d hd he
    rcases List.mem_append.1 hd with hd | hd
    · exact h.unpinned hne d (List.mem_append_left ds (mem_canonical_of_exactly hd he)) he
    · exact h.unpinned hne d (List.mem_append_right _ hd) he
  have hpins : c.comparison ≠ .exactly → pins cs = [] := fun hne =>
    pins_eq_nil_iff.2 fun d hd => hunpinned hne d (List.mem_append_left ds hd)
  refine ⟨?_, hunpinned, fun hl d hd hdl => ?_, fun hu d hd hdu => ?_⟩
  · rcases List.mem_append.1 h.mem with hc | hc
    · exact List.mem_append_left ds (mem_of_mem_canonical hc)
    · exact List.mem_append_right cs hc
  · rcases List.mem_append.1 hd with hd | hd
    · obtain ⟨m, hm, hml, hmd⟩ :=
        exists_lower_mem_canonical (hpins (ne_exactly_of_isLower hl)) hd hdl
      exact not_tighterLower_trans (h.lowest hl m (List.mem_append_left ds hm) hml) hmd
    · exact h.lowest hl d (List.mem_append_right _ hd) hdl
  · rcases List.mem_append.1 hd with hd | hd
    · obtain ⟨m, hm, hmu, hmd⟩ :=
        exists_upper_mem_canonical (hpins (ne_exactly_of_isUpper hu)) hd hdu
      exact not_tighterUpper_trans (h.highest hu m (List.mem_append_left ds hm) hmu) hmd
    · exact h.highest hu d (List.mem_append_right _ hd) hdu

theorem canonical_append_within (cs ds : List Clause) :
    Within (canonical cs ++ ds) (cs ++ ds) :=
  (Within.of_subset fun _ => mem_of_mem_canonical).append (Alike.refl ds).1

/-- Clauses that the canonical form drops have no part in what is kept later. -/
theorem canonical_append_alike (cs ds : List Clause) :
    Alike (canonical (canonical cs ++ ds)) (canonical (cs ++ ds)) := by
  refine ⟨fun c hc => ?_, fun c hc => ?_⟩
  · exact (kept_of_mem_canonical hc).of_canonical_append.exists_mem_canonical
  · have hkept := kept_of_mem_canonical hc
    have hstays : ∃ d ∈ canonical cs ++ ds, d.same c = true := by
      rcases List.mem_append.1 hkept.mem with hmem | hmem
      · have hcs : Kept cs c := hkept.of_within
          (Within.of_subset fun _ => List.mem_append_left ds) hmem (same_self c)
        obtain ⟨d, hd, hdc⟩ := hcs.exists_mem_canonical
        exact ⟨d, List.mem_append_left ds hd, hdc⟩
      · exact ⟨c, List.mem_append_right _ hmem, same_self c⟩
    obtain ⟨d, hd, hdc⟩ := hstays
    obtain ⟨e, he, hed⟩ :=
      (hkept.of_within (canonical_append_within cs ds) hd hdc).exists_mem_canonical
    exact ⟨e, he, same_tran hed hdc⟩

/-! ### Contradictions that go on -/

/-- Beside an exact version, clauses do not contradict each other when all of them admit it and
no other version is exact. -/
theorem conflict?_of_exactly (hp : p ∈ cs) (he : p.comparison = .exactly) :
    conflict? cs = none ↔
      ∀ c ∈ cs, c.admits p.bound = true ∧ (c.comparison = .exactly → c.same p = true) := by
  rw [conflict?_eq_none_iff]
  constructor
  · rintro ⟨hpins, -⟩ c hc
    refine ⟨hpins p hp he c hc, fun hce => same_iff_comparison.2 ⟨hce.trans he.symm, ?_⟩⟩
    exact same_of_admits hce he (hpins p hp he c hc) (hpins c hc hce p hp)
  · intro h
    refine ⟨fun q hq hqe c hc => ?_, fun low hlow high hhigh hl hu => ?_⟩
    · have hqp := (same_iff_comparison.1 ((h q hq).2 hqe)).2
      rw [admits_congr (same_self c) hqp]
      exact (h c hc).1
    · exact not_crossed_of_admits hl hu (h low hlow).1 (h high hhigh).1

/-- Clauses with an exact version contradict later ones exactly if their canonical form does. -/
theorem conflict?_append_of_pinned (hp : pins cs ≠ []) (hcs : conflict? cs = none) :
    conflict? (cs ++ ds) = none ↔ conflict? (canonical cs ++ ds) = none := by
  refine ⟨(canonical_append_within cs ds).conflict?_eq_none, fun hcanonical => ?_⟩
  obtain ⟨p, hpin⟩ := List.exists_mem_of_ne_nil _ hp
  obtain ⟨hmem, he⟩ := mem_pins.1 hpin
  have hgoes : p ∈ canonical cs ++ ds := List.mem_append_left ds (mem_canonical_of_exactly hmem he)
  -- the exact version goes on, and everything is compared with it
  rw [conflict?_of_exactly hmem he] at hcs
  rw [conflict?_of_exactly hgoes he] at hcanonical
  rw [conflict?_of_exactly (List.mem_append_left ds hmem) he]
  intro c hc
  rcases List.mem_append.1 hc with hc | hc
  · exact hcs c hc
  · exact hcanonical c (List.mem_append_right _ hc)

/-- As long as no version is exact, clauses contradict each other exactly if their canonical form
does. -/
theorem conflict?_append_of_unpinned (hcs : pins cs = []) (hds : pins ds = []) :
    conflict? (cs ++ ds) = none ↔ conflict? (canonical cs ++ ds) = none := by
  refine ⟨(canonical_append_within cs ds).conflict?_eq_none, fun hcanonical => ?_⟩
  rw [pins_eq_nil_iff] at hds
  have hfree : ∀ c ∈ cs ++ ds, c.comparison ≠ .exactly := fun c hc =>
    (List.mem_append.1 hc).elim (pins_eq_nil_iff.1 hcs c) (hds c)
  have hfree' : ∀ c ∈ canonical cs ++ ds, c.comparison ≠ .exactly := fun c hc =>
    (List.mem_append.1 hc).elim (pins_eq_nil_iff.1 hcs c ∘ mem_of_mem_canonical) (hds c)
  rw [conflict?_of_unpinned (pins_eq_nil_iff.2 hfree')] at hcanonical
  rw [conflict?_of_unpinned (pins_eq_nil_iff.2 hfree)]
  intro low hlow high hhigh hl hu
  -- each bound is no tighter than one that goes on
  have hlow' : ∃ m ∈ canonical cs ++ ds, m.comparison.isLower = true ∧
      tighterLower m low = false := by
    rcases List.mem_append.1 hlow with hlow | hlow
    · obtain ⟨m, hm, hml, ht⟩ := exists_lower_mem_canonical hcs hlow hl
      exact ⟨m, List.mem_append_left ds hm, hml, ht⟩
    · exact ⟨low, List.mem_append_right _ hlow, hl, tighterLower_irrefl low⟩
  have hhigh' : ∃ m ∈ canonical cs ++ ds, m.comparison.isUpper = true ∧
      tighterUpper m high = false := by
    rcases List.mem_append.1 hhigh with hhigh | hhigh
    · obtain ⟨m, hm, hmu, ht⟩ := exists_upper_mem_canonical hcs hhigh hu
      exact ⟨m, List.mem_append_left ds hm, hmu, ht⟩
    · exact ⟨high, List.mem_append_right _ hhigh, hu, tighterUpper_irrefl high⟩
  obtain ⟨lo, hlo, hlol, htlow⟩ := hlow'
  obtain ⟨hi, hhi, hhiu, hthigh⟩ := hhigh'
  exact crossed_tighter htlow hthigh (hcanonical lo hlo hi hhi hlol hhiu)

/-- Clauses without an exact version contradict each other only if their canonical form does. -/
theorem conflict?_of_canonical (hcs : pins cs = []) (h : conflict? (canonical cs) = none) :
    conflict? cs = none := by
  have hnil : conflict? (cs ++ []) = none ↔ conflict? (canonical cs ++ []) = none :=
    conflict?_append_of_unpinned hcs rfl
  rw [List.append_nil, List.append_nil] at hnil
  exact hnil.2 h

/-! ### Joining lists of clauses -/

theorem pins_flatten_eq_nil_iff : pins dss.flatten = [] ↔ ∀ ds ∈ dss, pins ds = [] := by
  simp only [pins_eq_nil_iff, List.mem_flatten]
  constructor
  · exact fun h ds hds c hc => h c ⟨ds, hds, hc⟩
  · rintro h c ⟨ds, hds, hc⟩
    exact h ds hds c hc

/-- Joins lists to clauses, and goes on with the canonical clauses after each. -/
def joined : List Clause → List (List Clause) → List Clause
  | cs, [] => cs
  | cs, ds :: dss => joined (canonical (cs ++ ds)) dss

/-- Joining succeeds when the clauses contradict each other at no step. -/
def Joins : List Clause → List (List Clause) → Prop
  | _, [] => True
  | cs, ds :: dss => conflict? (cs ++ ds) = none ∧ Joins (canonical (cs ++ ds)) dss

theorem Alike.joined (h : Alike cs cs') : Alike (joined cs dss) (joined cs' dss) := by
  induction dss generalizing cs cs' with
  | nil => exact h
  | cons ds dss ih => exact ih (h.append (Alike.refl ds)).canonical

theorem Joins.of_alike (h : Alike cs cs') (hj : Joins cs dss) : Joins cs' dss := by
  induction dss generalizing cs cs' with
  | nil => exact hj
  | cons ds dss ih =>
      have hds := h.append (Alike.refl ds)
      exact ⟨hds.conflict?_iff.1 hj.1, ih hds.canonical hj.2⟩

theorem joins_append : Joins cs (css ++ dss) ↔ Joins cs css ∧ Joins (joined cs css) dss := by
  induction css generalizing cs with
  | nil => simp [Joins, joined]
  | cons ds css ih => simp only [List.cons_append, Joins, joined, ih, and_assoc]

/-- Whatever was dropped on the way, the canonical clauses of all are left. -/
theorem joined_alike (h : dss ≠ []) : Alike (joined cs dss) (canonical (cs ++ dss.flatten)) := by
  induction dss generalizing cs with
  | nil => exact absurd rfl h
  | cons ds dss ih =>
      rw [joined, List.flatten_cons, ← List.append_assoc]
      by_cases hdss : dss = []
      · subst hdss
        rw [joined, List.flatten_nil, List.append_nil]
        exact Alike.refl _
      · exact (ih hdss).trans (canonical_append_alike _ _)

/-- Joining succeeds when all clauses together do not contradict each other. -/
theorem joins_of_conflict? (h : conflict? (cs ++ dss.flatten) = none) : Joins cs dss := by
  induction dss generalizing cs with
  | nil => trivial
  | cons ds dss ih =>
      rw [List.flatten_cons, ← List.append_assoc] at h
      refine ⟨(Within.of_subset fun _ => List.mem_append_left _).conflict?_eq_none h, ih ?_⟩
      exact (canonical_append_within _ _).conflict?_eq_none h

/-- As long as no exact version comes after a step, joining succeeds only if all clauses together
do not contradict each other. -/
theorem conflict?_of_joins (h : pins (cs ++ ds) ≠ [] ∨ ∀ es ∈ dss, pins es = [])
    (hj : Joins cs (ds :: dss)) : conflict? (cs ++ (ds :: dss).flatten) = none := by
  induction dss generalizing cs ds with
  | nil => simpa using hj.1
  | cons es dss ih =>
      obtain ⟨hcs, hj⟩ := hj
      rw [List.flatten_cons, ← List.append_assoc]
      -- no later clause is exact, or the exact one is there already and goes on
      by_cases hp : pins (cs ++ ds) = []
      · have hdss := h.resolve_left fun hne => hne hp
        rw [conflict?_append_of_unpinned hp (pins_flatten_eq_nil_iff.2 hdss)]
        exact ih (.inr fun es' hes => hdss es' (List.mem_cons_of_mem es hes)) hj
      · rw [conflict?_append_of_pinned hp hcs]
        refine ih (.inl fun hnil => hp (pins_eq_nil_iff.2 fun c hc he => ?_)) hj
        have hgoes := List.mem_append_left es (mem_canonical_of_exactly hc he)
        exact pins_eq_nil_iff.1 hnil c hgoes he

theorem conflict?_joined (hcs : conflict? cs = none) (hj : Joins cs dss) :
    conflict? (joined cs dss) = none := by
  induction dss generalizing cs with
  | nil => exact hcs
  | cons ds dss ih =>
      exact ih ((Within.of_subset fun _ => mem_of_mem_canonical).conflict?_eq_none hj.1) hj.2

/-! ### What is checked -/

/-- The lists before the first with an exact version. -/
def leading (css : List (List Clause)) : List (List Clause) := css.takeWhile (pins · = [])

/-- The lists from the first with an exact version on. -/
def following (css : List (List Clause)) : List (List Clause) := css.dropWhile (pins · = [])

/-- The clauses among which joining finds a contradiction: only the canonical ones of the leading
lists, if these are more than one, and all of the others. -/
def checked (css : List (List Clause)) : List Clause :=
  (if (leading css).length ≤ 1 then (leading css).flatten else canonical (leading css).flatten)
    ++ (following css).flatten

theorem leading_append_following (css : List (List Clause)) : leading css ++ following css = css :=
  List.takeWhile_append_dropWhile

theorem pins_of_mem_leading (h : ds ∈ leading css) : pins ds = [] := by
  simpa using List.all_eq_true.1 List.all_takeWhile ds h

theorem pins_of_head?_following (h : ds ∈ (following css).head?) : pins ds ≠ [] := by
  simpa using Text.head?_dropWhile _ css ds h

theorem checked_within (css : List (List Clause)) : Within (checked css) css.flatten := by
  have hflatten : (leading css).flatten ++ (following css).flatten = css.flatten := by
    rw [← List.flatten_append, leading_append_following]
  rw [← hflatten, checked]
  split
  · exact (Alike.refl _).1
  · exact canonical_append_within _ _

theorem checked_of_pinned (h : pins cs ≠ []) : checked (cs :: dss) = (cs :: dss).flatten := by
  simp [checked, leading, following, h]

theorem checked_alike (h : pins cs = []) :
    Alike (checked (cs :: dss)) (joined cs (leading dss) ++ (following dss).flatten) := by
  have hlead : leading (cs :: dss) = cs :: leading dss := by simp [leading, h]
  have hfollow : following (cs :: dss) = following dss := by simp [following, h]
  rw [checked, hlead, hfollow]
  by_cases hnil : leading dss = []
  · simpa [hnil, joined] using Alike.refl _
  · have hlen := List.length_pos_iff.2 hnil
    rw [if_neg (by rw [List.length_cons]; omega)]
    exact (joined_alike hnil).symm.append (Alike.refl _)

/-- Joining succeeds exactly if the checked clauses do not contradict each other. -/
theorem joins_iff (hcs : conflict? cs = none) :
    Joins cs dss ↔ conflict? (checked (cs :: dss)) = none := by
  by_cases hp : pins cs = []
  · rw [(checked_alike hp).conflict?_iff]
    conv => lhs; rw [← leading_append_following dss, joins_append]
    -- the leading lists are joined to their canonical clauses, and then the exact version comes
    constructor
    · rintro ⟨hlead, hfollow⟩
      cases hess : following dss with
      | nil => simpa using conflict?_joined hcs hlead
      | cons es ess =>
          have hhead : es ∈ (following dss).head? := by
            rw [hess]
            rfl
          have hes : pins es ≠ [] := pins_of_head?_following hhead
          rw [hess] at hfollow
          refine conflict?_of_joins (.inl fun hnil => hes ?_) hfollow
          rw [pins_eq_nil_iff] at hnil ⊢
          exact fun c hc => hnil c (List.mem_append_right _ hc)
    · intro hnone
      refine ⟨?_, joins_of_conflict? hnone⟩
      by_cases hnil : leading dss = []
      · rw [hnil]
        trivial
      · have hjoined : conflict? (joined cs (leading dss)) = none :=
          (Within.of_subset fun _ => List.mem_append_left _).conflict?_eq_none hnone
        rw [(joined_alike hnil).conflict?_iff] at hjoined
        have hfree : pins (cs :: leading dss).flatten = [] :=
          pins_flatten_eq_nil_iff.2 (List.forall_mem_cons.2 ⟨hp, fun _ => pins_of_mem_leading⟩)
        exact joins_of_conflict? (conflict?_of_canonical hfree hjoined)
  · -- the first list has an exact version, so nothing is missed
    rw [checked_of_pinned hp]
    refine ⟨fun hj => ?_, joins_of_conflict?⟩
    cases dss with
    | nil => simpa using hcs
    | cons ds dss =>
        refine conflict?_of_joins (.inl fun hnil => hp ?_) hj
        rw [pins_eq_nil_iff] at hnil ⊢
        exact fun c hc => hnil c (List.mem_append_left ds hc)

/-! ### Hidden contradictions -/

/-- The lists without an exact version. -/
def unpinned (css : List (List Clause)) : List (List Clause) := css.filter (pins · = [])

/-- The lists with an exact version. -/
def pinned (css : List (List Clause)) : List (List Clause) := css.filter (pins · ≠ [])

/-- The clauses contradict each other, but when the lists without an exact version, at least two,
are joined first, then nothing of the contradiction is left. -/
def Hides (css : List (List Clause)) : Prop :=
  conflict? css.flatten ≠ none ∧ 2 ≤ (unpinned css).length ∧
    conflict? (canonical (unpinned css).flatten ++ (pinned css).flatten) = none

instance (css : List (List Clause)) : Decidable (Hides css) :=
  inferInstanceAs (Decidable (_ ∧ _))

theorem mem_unpinned {ds : List Clause} : ds ∈ unpinned css ↔ ds ∈ css ∧ pins ds = [] := by
  simp [unpinned]

theorem mem_pinned {ds : List Clause} : ds ∈ pinned css ↔ ds ∈ css ∧ pins ds ≠ [] := by
  simp [pinned]

/-- The more lists are joined before the first exact version comes, the less is left of them. -/
theorem canonical_unpinned_within (h : ∀ ds ∈ css, pins ds = []) :
    Within (canonical (unpinned (css ++ dss)).flatten ++ (pinned (css ++ dss)).flatten)
      (canonical css.flatten ++ dss.flatten) := by
  have hfirst : Within css.flatten (unpinned (css ++ dss)).flatten := by
    refine Within.of_subset fun c hc => ?_
    obtain ⟨ds, hds, hc⟩ := List.mem_flatten.1 hc
    exact List.mem_flatten.2 ⟨ds, mem_unpinned.2 ⟨List.mem_append_left dss hds, h ds hds⟩, hc⟩
  intro c hc
  rcases List.mem_append.1 hc with hc | hc
  · have hkept := kept_of_mem_canonical hc
    obtain ⟨ds, hds, hmem⟩ := List.mem_flatten.1 hkept.mem
    rcases List.mem_append.1 (mem_unpinned.1 hds).1 with hds | hds
    · have hcss : c ∈ css.flatten := List.mem_flatten.2 ⟨ds, hds, hmem⟩
      obtain ⟨d, hd, hdc⟩ := (hkept.of_within hfirst hcss (same_self c)).exists_mem_canonical
      exact ⟨d, List.mem_append_left _ hd, hdc⟩
    · exact ⟨c, List.mem_append_right _ (List.mem_flatten.2 ⟨ds, hds, hmem⟩), same_self c⟩
  · obtain ⟨ds, hds, hmem⟩ := List.mem_flatten.1 hc
    obtain ⟨hds, hp⟩ := mem_pinned.1 hds
    rcases List.mem_append.1 hds with hds | hds
    · exact absurd (h ds hds) hp
    · exact ⟨c, List.mem_append_right _ (List.mem_flatten.2 ⟨ds, hds, hmem⟩), same_self c⟩

/-- Where no contradiction is found although there is one, it is hidden. -/
theorem hides_of_checked (h : conflict? (checked css) = none)
    (hall : conflict? css.flatten ≠ none) : Hides css := by
  have hsplit := leading_append_following css
  by_cases hlen : (leading css).length ≤ 1
  · rw [checked, if_pos hlen, ← List.flatten_append, hsplit] at h
    exact absurd h hall
  · rw [checked, if_neg hlen] at h
    have hwithin : Within
        (canonical (unpinned (leading css ++ following css)).flatten ++
          (pinned (leading css ++ following css)).flatten)
        (canonical (leading css).flatten ++ (following css).flatten) :=
      canonical_unpinned_within fun _ => pins_of_mem_leading
    rw [hsplit] at hwithin
    refine ⟨hall, ?_, hwithin.conflict?_eq_none h⟩
    have hfree : (leading css).filter (pins · = []) = leading css :=
      List.filter_eq_self.2 fun ds hds => by simpa using pins_of_mem_leading hds
    rw [unpinned, ← hsplit, List.filter_append, List.length_append, hfree]
    omega

/-! ### Orders -/

theorem alike_flatten_of_perm (h : css.Perm dss) : Alike css.flatten dss.flatten :=
  .of_mem_iff fun c => by simp only [List.mem_flatten, h.mem_iff]

theorem unpinned_append_pinned_perm (css : List (List Clause)) :
    (unpinned css ++ pinned css).Perm css := by
  have h := List.filter_append_perm (fun cs => decide (pins cs = [])) css
  simpa [unpinned, pinned] using h

theorem Hides.of_perm (h : css.Perm dss) (hh : Hides css) : Hides dss := by
  obtain ⟨hall, hlen, hleft⟩ := hh
  have hu : (unpinned css).Perm (unpinned dss) := h.filter _
  have hp : (pinned css).Perm (pinned dss) := h.filter _
  have halike := (alike_flatten_of_perm hu).canonical.append (alike_flatten_of_perm hp)
  refine ⟨fun hnone => hall ?_, hu.length_eq ▸ hlen, halike.conflict?_iff.1 hleft⟩
  exact (alike_flatten_of_perm h).conflict?_iff.2 hnone

theorem pins_flatten_unpinned (css : List (List Clause)) : pins (unpinned css).flatten = [] :=
  pins_flatten_eq_nil_iff.2 fun _ hds => (mem_unpinned.1 hds).2

theorem leading_unpinned_append (css : List (List Clause)) :
    leading (unpinned css ++ pinned css) = unpinned css ∧
      following (unpinned css ++ pinned css) = pinned css := by
  have hu : ∀ ds ∈ unpinned css, decide (pins ds = []) = true := fun ds hds => by
    simpa using (mem_unpinned.1 hds).2
  rw [leading, following, List.takeWhile_append_of_pos hu, List.dropWhile_append_of_pos hu]
  cases hp : pinned css with
  | nil => simp
  | cons ds dss =>
      have hds : pins ds ≠ [] := (mem_pinned.1 (hp ▸ List.mem_cons_self)).2
      simp [hds]

/-- A hidden contradiction is not found when the exact versions come last. -/
theorem Hides.checked_unpinned_first (h : Hides css) :
    conflict? (checked (unpinned css ++ pinned css)) = none := by
  obtain ⟨-, hlen, hleft⟩ := h
  obtain ⟨hleading, hfollowing⟩ := leading_unpinned_append css
  rw [checked, hleading, hfollowing, if_neg (by omega)]
  exact hleft

/-- A hidden contradiction is found when the exact versions come first. -/
theorem Hides.checked_pinned_first (h : Hides css) :
    conflict? (checked (pinned css ++ unpinned css)) ≠ none := by
  intro hnone
  have hperm : (pinned css ++ unpinned css).Perm css :=
    List.perm_append_comm.trans (unpinned_append_pinned_perm css)
  refine h.1 ((alike_flatten_of_perm hperm).conflict?_iff.1 ?_)
  cases hp : pinned css with
  | nil =>
      -- without exact versions there is nothing to hide
      have hleft := h.2.2
      rw [hp, List.flatten_nil, List.append_nil] at hleft
      exact conflict?_of_canonical (pins_flatten_unpinned css) hleft
  | cons ds dss =>
      have hds : pins ds ≠ [] := (mem_pinned.1 (hp ▸ List.mem_cons_self)).2
      rw [hp, List.cons_append, checked_of_pinned hds] at hnone
      exact hnone

end HostPrereqs.Clause
