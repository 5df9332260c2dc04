import HostPrereqs.Proofs.Value.Keys
import HostPrereqs.Settings.Layer

/-!
# Settings — what an overlay names

Under a text, an overlay has what the upper entries have, and else what the lower ones have; where
both have mappings these are overlaid in turn (`find?_overlay`).  The keys of the upper entries
have to be distinct for that; an overlay of entries with distinct keys has distinct keys itself, and
so have the mappings in it (`Layer.overlay`).
-/

namespace HostPrereqs.Settings

open Value (Distinct find?)

variable {low high es : List (Value × Value)} {k v : Value} {t : String}

theorem overlay_nil : overlay low [] = low := by rw [overlay]

/-- The entries of the upper mapping are laid over the lower one in turn. -/
theorem overlay_cons : overlay low ((k, v) :: high) = overlay (overlayAt k v low) high := by
  rw [overlay]

/-- What a value becomes over another one that stands under the same key. -/
def laidOver (lower : Option Value) (v : Value) : Value :=
  match lower, v with
  | some (.map inner), .map outer => .map (overlay inner outer)
  | _, v => v

theorem laidOver_of_not_map (h : ∀ outer, v ≠ .map outer) (lower : Option Value) :
    laidOver lower v = v := by
  unfold laidOver
  split
  · exact absurd rfl (h _)
  · rfl

theorem laidOver_map (lower : Option Value) (outer : List (Value × Value)) :
    ∃ entries, laidOver lower (.map outer) = .map entries := by
  unfold laidOver
  split
  · exact ⟨_, rfl⟩
  · exact ⟨outer, rfl⟩

/-- An entry is set to its value, over what stands under its key. -/
theorem overlayAt_eq : overlayAt k v low =
    Value.insert k (laidOver ((low.find? fun (l, _) => l.sameKey k).map (·.2)) v) low := by
  unfold overlayAt
  split
  · rename_i inner outer hlower
    rw [hlower]
    rfl
  · rename_i hother
    rw [laidOver]
    intro inner outer hlower hv
    obtain ⟨⟨l, lower⟩, hfound, rfl⟩ := Option.map_eq_some_iff.1 hlower
    exact hother l inner outer hfound hv

/-- What is laid over nothing is all there is. -/
theorem overlayAt_nil (k v : Value) : overlayAt k v [] = [(k, v)] := by
  rw [overlayAt_eq]
  rfl

/-- Setting a key changes what is found under this key only. -/
theorem find?_overlayAt : find? (overlayAt k v low) t =
    if k.sameKey (.str t) then some (laidOver (find? low t) v) else find? low t := by
  rw [overlayAt_eq, Value.find?_insert]
  split
  · rename_i hk
    obtain rfl := Value.sameKey_str.1 hk
    rfl
  · rfl

/-- Under a text, an overlay has what the upper entries have, and else what the lower ones have. -/
theorem find?_overlay (h : Distinct high) : find? (overlay low high) t =
    ((find? high t).map (laidOver (find? low t))).or (find? low t) := by
  induction high generalizing low with
  | nil => rw [overlay_nil, Value.find?_nil, Option.map_none, Option.none_or]
  | cons e high ih =>
      obtain ⟨k, v⟩ := e
      rw [overlay_cons, ih (List.pairwise_cons.1 h).2, find?_overlayAt, Value.find?_cons]
      split
      · rename_i hk
        obtain rfl := Value.sameKey_str.1 hk
        rw [h.find?_tail, Option.map_none, Option.none_or, Option.map_some, Option.some_or]
      · rfl

/-- Overlaying puts no key twice into a mapping. -/
theorem distinct_overlay (h : Distinct low) (high : List (Value × Value)) :
    Distinct (overlay low high) := by
  induction high generalizing low with
  | nil =>
      rw [overlay_nil]
      exact h
  | cons e high ih =>
      rw [overlay_cons, overlayAt_eq]
      exact ih (h.insert _ _)

/-- The entries of a layer: no key stands twice among them, and none in a mapping of theirs. -/
structure Layer (es : List (Value × Value)) : Prop where
  keys : Distinct es
  inner : ∀ e ∈ es, ∀ inner, e.2 = .map inner → Distinct inner

namespace Layer

theorem nil : Layer [] := ⟨Value.distinct_nil, fun _ he => absurd he List.not_mem_nil⟩

theorem find? (h : Layer es) {inner : List (Value × Value)}
    (hfind : find? es t = some (.map inner)) :
    Distinct inner :=
  h.inner _ (Value.mem_of_find? hfind) inner rfl

theorem insert (h : Layer es) (k : Value) (hv : ∀ inner, v = .map inner → Distinct inner) :
    Layer (Value.insert k v es) := by
  refine ⟨h.keys.insert k v, fun e he => ?_⟩
  rcases Value.mem_insert he with he | ⟨heq, -⟩
  · exact h.inner e he
  · rw [heq]
    exact hv

/-- Setting a key keeps the mappings inside a layer distinct. -/
theorem overlayAt (h : Layer low) (k : Value) (hv : ∀ inner, v = .map inner → Distinct inner) :
    Layer (overlayAt k v low) := by
  rw [overlayAt_eq]
  refine h.insert k fun entries hentries => ?_
  unfold laidOver at hentries
  split at hentries
  · rename_i inner outer hlower
    obtain rfl := Value.map.inj hentries
    obtain ⟨e, hfound, heq⟩ := Option.map_eq_some_iff.1 hlower
    exact distinct_overlay (h.inner e (List.mem_of_find?_eq_some hfound) inner heq) outer
  · exact hv entries hentries

/-- An overlay of layers is a layer. -/
theorem overlay (hlow : Layer low) (hhigh : Layer high) : Layer (overlay low high) := by
  obtain ⟨-, hinner⟩ := hhigh
  induction high generalizing low with
  | nil =>
      rw [overlay_nil]
      exact hlow
  | cons e high ih =>
      obtain ⟨k, v⟩ := e
      obtain ⟨hv, hinner⟩ := List.forall_mem_cons.1 hinner
      rw [overlay_cons]
      exact ih (hlow.overlayAt k hv) hinner

end Layer

end HostPrereqs.Settings
