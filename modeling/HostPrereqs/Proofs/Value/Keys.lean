import HostPrereqs.Value.Basic

/-!
# Value — the keys of mappings

A text is the same key as itself and as nothing else (`sameKey_str`), so that setting a key changes
what is found under that key only (`find?_insert`).  Keys are distinct if no two of them are the
same (`Distinct`); a mapping that is made by setting keys has distinct ones (`distinct_ofPairs`).
-/

namespace HostPrereqs.Value

variable {k v : Value} {s t : String} {es : List (Value × Value)} {e : Value × Value}

theorem sameKey_str : k.sameKey (str s) = true ↔ k = str s := by
  cases k <;> simp [sameKey, whole?]

theorem str_sameKey : (str s).sameKey k = true ↔ k = str s := by
  cases k <;> simp [sameKey, whole?, eq_comm]

/-! ### What is found -/

@[simp] theorem find?_nil : find? [] t = none := rfl

theorem find?_cons : find? ((k, v) :: es) t = if k.sameKey (str t) then some v else find? es t := by
  rw [find?, List.find?_cons]
  dsimp only
  cases k.sameKey (str t) <;> rfl

/-- A key that is set is found with its value, and nothing changes about other keys. -/
theorem find?_insert :
    find? (insert k v es) t = if k.sameKey (str t) then some v else find? es t := by
  induction es with
  | nil => rw [insert, find?_cons]
  | cons e es ih =>
      obtain ⟨k', v'⟩ := e
      rw [insert]
      -- a key that is the same as a text is that text
      by_cases hk : k.sameKey (str t) = true
      · obtain rfl := sameKey_str.1 hk
        rw [if_pos hk]
        split
        · rename_i hsame
          rw [find?_cons, if_pos hsame]
        · rename_i hother
          rw [find?_cons, if_neg hother, ih, if_pos hk]
      · rw [if_neg hk] at ih ⊢
        split
        · rename_i hsame
          have hk' : ¬ k'.sameKey (str t) = true := fun h =>
            hk (sameKey_str.2 (str_sameKey.1 (sameKey_str.1 h ▸ hsame)))
          rw [find?_cons, find?_cons, if_neg hk', if_neg hk']
        · rw [find?_cons, find?_cons, ih]

theorem mem_of_find? (h : find? es t = some v) : (str t, v) ∈ es := by
  induction es with
  | nil => cases h
  | cons e es ih =>
      obtain ⟨k, v'⟩ := e
      rw [find?_cons] at h
      split at h
      · rename_i hk
        obtain rfl := sameKey_str.1 hk
        obtain rfl := Option.some.inj h
        exact List.mem_cons_self
      · exact List.mem_cons_of_mem _ (ih h)

theorem find?_eq_none (h : ∀ e ∈ es, e.1 ≠ str t) : find? es t = none := by
  cases hfind : find? es t with
  | none => rfl
  | some v => exact absurd rfl (h _ (mem_of_find? hfind))

theorem exists_find? (h : ∃ e ∈ es, e.1 = str t) : ∃ v, find? es t = some v := by
  obtain ⟨e, he, hkey⟩ := h
  rw [← Option.isSome_iff_exists, find?, Option.isSome_map, List.find?_isSome]
  exact ⟨e, he, sameKey_str.2 hkey⟩

/-- What stands in a mapping after a key is set: what stood there, or the value, under that key or
one that is the same. -/
theorem mem_insert (h : e ∈ insert k v es) :
    e ∈ es ∨ e.2 = v ∧ (e.1 = k ∨ ∃ w, (e.1, w) ∈ es) := by
  induction es with
  | nil =>
      obtain rfl := List.mem_singleton.1 h
      exact .inr ⟨rfl, .inl rfl⟩
  | cons e' es ih =>
      obtain ⟨k', v'⟩ := e'
      rw [insert] at h
      split at h
      · rcases List.mem_cons.1 h with rfl | h
        · exact .inr ⟨rfl, .inr ⟨v', List.mem_cons_self⟩⟩
        · exact .inl (List.mem_cons_of_mem _ h)
      · rcases List.mem_cons.1 h with rfl | h
        · exact .inl List.mem_cons_self
        · exact (ih h).imp (List.mem_cons_of_mem _) fun ⟨hv, hk⟩ =>
            ⟨hv, hk.imp_right fun ⟨w, hw⟩ => ⟨w, List.mem_cons_of_mem _ hw⟩⟩

theorem find?_append (es fs : List (Value × Value)) (t : String) :
    find? (es ++ fs) t = (find? es t).or (find? fs t) := by
  rw [find?, List.find?_append, Option.map_or]
  rfl

/-- Of pairs that are set one after the other, the last one with a key counts. -/
theorem find?_foldl_insert (ps : List (Value × Value)) :
    find? (ps.foldl (fun es (k, v) => insert k v es) es) t =
      (find? ps.reverse t).or (find? es t) := by
  induction ps generalizing es with
  | nil => rfl
  | cons p ps ih =>
      obtain ⟨k, v⟩ := p
      rw [List.foldl_cons, ih, find?_insert, List.reverse_cons, find?_append, find?_cons]
      split
      · rw [Option.or_assoc, Option.some_or]
      · rw [find?_nil, Option.or_none]

/-! ### Distinct keys -/

/-- No key stands twice. -/
def Distinct (es : List (Value × Value)) : Prop :=
  (es.map (·.1)).Pairwise fun k l => k.sameKey l = false

theorem distinct_nil : Distinct [] := .nil

/-- A key that is set is a new one at the end, or the keys are the same as before. -/
theorem keys_insert (k v : Value) (es : List (Value × Value)) :
    (insert k v es).map (·.1) = es.map (·.1) ∨
      (∀ e ∈ es, e.1.sameKey k = false) ∧ (insert k v es).map (·.1) = es.map (·.1) ++ [k] := by
  induction es with
  | nil => exact .inr ⟨fun e he => absurd he List.not_mem_nil, rfl⟩
  | cons e es ih =>
      obtain ⟨k', v'⟩ := e
      rw [insert]
      split
      · exact .inl rfl
      · rename_i hother
        rcases ih with heq | ⟨hnew, heq⟩
        · exact .inl (by rw [List.map_cons, heq, List.map_cons])
        · refine .inr ⟨List.forall_mem_cons.2 ⟨Bool.eq_false_iff.2 hother, hnew⟩, ?_⟩
          rw [List.map_cons, heq, List.map_cons, List.cons_append]

/-- Setting a key keeps keys distinct. -/
theorem Distinct.insert (h : Distinct es) (k v : Value) : Distinct (insert k v es) := by
  rcases keys_insert k v es with heq | ⟨hnew, heq⟩
  · rw [Distinct, heq]
    exact h
  · rw [Distinct, heq, List.pairwise_append]
    refine ⟨h, List.pairwise_singleton _ _, fun k' hk' l hl => ?_⟩
    obtain ⟨e, he, rfl⟩ := List.mem_map.1 hk'
    obtain rfl := List.mem_singleton.1 hl
    exact hnew e he

theorem Distinct.foldl_insert {ps : List (Value × Value)} (h : Distinct es) :
    Distinct (ps.foldl (fun es (k, v) => Value.insert k v es) es) := by
  induction ps generalizing es with
  | nil => exact h
  | cons p ps ih => exact ih (h.insert p.1 p.2)

theorem distinct_ofPairs {ps : List (Value × Value)} (h : ofPairs ps = map es) : Distinct es := by
  obtain rfl := map.inj h
  exact distinct_nil.foldl_insert

/-- A new key is set at the end. -/
theorem insert_of_new (h : ∀ e ∈ es, e.1.sameKey k = false) : insert k v es = es ++ [(k, v)] := by
  induction es with
  | nil => rfl
  | cons e es ih =>
      obtain ⟨hfirst, hrest⟩ := List.forall_mem_cons.1 h
      rw [insert, if_neg (Bool.eq_false_iff.1 hfirst), ih hrest, List.cons_append]

/-- Setting distinct keys one after the other gives them in order. -/
theorem ofPairs_of_distinct {ps : List (Value × Value)} (h : Distinct ps) :
    ofPairs ps = map ps := by
  suffices hgen : ∀ done : List (Value × Value), Distinct (done ++ ps) →
      ps.foldl (fun es (k, v) => insert k v es) done = done ++ ps from congrArg map (hgen [] h)
  clear h
  induction ps with
  | nil => intro done _; simp
  | cons p ps ih =>
      intro done hdone
      obtain ⟨k, v⟩ := p
      have hnew : ∀ e ∈ done, e.1.sameKey k = false := fun e he => by
        rw [Distinct, List.map_append, List.pairwise_append] at hdone
        exact hdone.2.2 _ (List.mem_map_of_mem he) _ List.mem_cons_self
      have hsplit : done ++ (k, v) :: ps = done ++ [(k, v)] ++ ps := by simp
      rw [hsplit] at hdone ⊢
      rw [List.foldl_cons]
      dsimp only
      rw [insert_of_new hnew, ih _ hdone]

/-- Different names are distinct keys. -/
theorem distinct_of_nodup {fields : List (String × Value)} (h : (fields.map (·.1)).Nodup) :
    Distinct (fields.map fun (k, v) => (str k, v)) := by
  have hkeys : (fields.map fun (k, v) => (str k, v)).map (·.1) = (fields.map (·.1)).map str := by
    simp [Function.comp_def]
  rw [Distinct, hkeys, List.pairwise_map]
  exact h.imp fun hne => Bool.eq_false_iff.2 fun hsame =>
    hne (str.inj (str_sameKey.1 hsame)).symm

/-- A text that stands first stands nowhere after. -/
theorem Distinct.find?_tail (h : Distinct ((str t, v) :: es)) : find? es t = none := by
  obtain ⟨hfirst, -⟩ := List.pairwise_cons.1 h
  cases hfind : find? es t with
  | none => rfl
  | some w =>
      have hsame := hfirst _ (List.mem_map_of_mem (f := (·.1)) (mem_of_find? hfind))
      rw [str_sameKey.2 rfl] at hsame
      cases hsame

end HostPrereqs.Value
