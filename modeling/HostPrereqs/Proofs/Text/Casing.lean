import HostPrereqs.Text.Casing

/-!
# Text — characters with a given small form

The small form of a character is found in a table of runs.  A run that does not lead to a code
point (`Misses`) can be skipped when one asks which characters have it as their small form.

* `lowerChar_eq_iff`: the characters whose small form is a given basic Latin letter, of which the
  table has one capital only, are that capital and the letter itself.
-/

namespace HostPrereqs.Text

variable {n m : Nat}

/-- A run of capitals has no small form `m`. -/
def Misses (m : Nat) (run : Nat × Nat × Nat × Int) : Prop :=
  run.2.1 + run.2.2.2 < m ∨ m < run.1 + run.2.2.2

instance (m : Nat) : DecidablePred (Misses m) := fun _ => inferInstanceAs (Decidable (_ ∨ _))

/-- What is not reached through a run is its own small form only. -/
theorem eq_of_lowerCode {runs : List (Nat × Nat × Nat × Int)} (hm : 0 < m)
    (hruns : ∀ run ∈ runs, Misses m run) (h : lowerCode runs n = m) : n = m := by
  induction runs with
  | nil => exact h
  | cons run runs ih =>
      obtain ⟨lo, hi, step, shift⟩ := run
      obtain ⟨hrun, hruns⟩ := List.forall_mem_cons.1 hruns
      rw [lowerCode] at h
      split at h
      · exact h
      · split at h
        · simp only [Misses] at hrun
          omega
        · exact ih hruns h

/-- The runs after the one of the basic Latin letters. -/
def furtherRuns : List (Nat × Nat × Nat × Int) := capitalRuns.tail

theorem eq_ofNat_iff {c : Char} (hc : c ≠ '\x00') : Char.ofNat n = c ↔ n = c.toNat := by
  constructor
  · intro h
    by_cases hn : n.isValidChar
    · rw [← h, Char.ofNat, dif_pos hn]
      rfl
    · rw [Char.ofNat, dif_neg hn] at h
      exact absurd h.symm hc
  · rintro rfl
    exact Char.ofNat_toNat c

/-- A basic Latin letter that no further run leads to is the small form of itself and of its
capital. -/
theorem lowerChar_eq_iff {c d : Char} (hlow : 97 ≤ d.toNat) (hhigh : d.toNat ≤ 122)
    (hruns : ∀ run ∈ furtherRuns, Misses d.toNat run) :
    lowerChar c = [d] ↔ c.toNat = d.toNat ∨ c.toNat + 32 = d.toNat := by
  have hzero : d ≠ '\x00' := by
    rintro rfl
    exact absurd hlow (by decide)
  unfold lowerChar
  split
  · rename_i hc
    have hcode : c.toNat = 304 := hc ▸ rfl
    exact ⟨nofun, fun h => by omega⟩
  · rw [List.singleton_inj, eq_ofNat_iff hzero,
      show capitalRuns = (65, 90, 1, 32) :: furtherRuns from rfl, lowerCode]
    split
    · omega
    · split
      · omega
      · refine ⟨fun h => .inl (eq_of_lowerCode (by omega) hruns h), fun h => ?_⟩
        -- the further runs start beyond the basic letters
        rw [show furtherRuns = (192, 214, 1, 32) :: furtherRuns.tail from rfl, lowerCode,
          if_pos (by omega)]
        omega

end HostPrereqs.Text
