import HostPrereqs.Proofs.Host.Similar

/-!
# Host — actions that log alike

Two actions are *alike* under a way to look at records when, from hosts that differ at most in what
cannot be seen of their logs, both give the same result or fail with the same error, and leave hosts
that differ at most so far (`Alike`).  In contrast to similar actions, the errors are the same, and
so are the records, as they are seen.

Actions that are alike are put together by the rules below; an action that is alike to itself does
not read the log.
-/

namespace HostPrereqs.Host

variable {ε ε' α β : Type} {look : Log.Record → Log.Record}

/-- A host whose log is seen in a certain way. -/
def seenBy (look : Log.Record → Log.Record) (h : Host) : Host := { h with log := h.log.map look }

/-- Hosts are seen to be the same if they are the same without their logs, and their logs are seen
to be the same. -/
theorem seenBy_eq_iff {h k : Host} : h.seenBy look = k.seenBy look ↔
    h.unlogged = k.unlogged ∧ h.log.map look = k.log.map look := by
  obtain ⟨_, _, _, _, _, _, _, _, _⟩ := h
  obtain ⟨_, _, _, _, _, _, _, _, _⟩ := k
  simp only [seenBy, unlogged, Host.mk.injEq, and_true, and_assoc]

/-- Both actions give the same result or the same error, and they leave the same host as far as it
is seen. -/
def Alike (look : Log.Record → Log.Record) (m n : OnHost α) : Prop :=
  ∀ h k : Host, h.seenBy look = k.seenBy look →
    (m h).1 = (n k).1 ∧ (m h).2.seenBy look = (n k).2.seenBy look

namespace Alike

theorem pure (a : α) : Alike look (Pure.pure a : ExceptT ε OnHost α)
    (Pure.pure a : ExceptT ε OnHost α) :=
  fun _ _ h => ⟨rfl, h⟩

theorem throw (e : ε) : Alike look (MonadExcept.throw e : ExceptT ε OnHost α)
    (MonadExcept.throw e : ExceptT ε OnHost α) :=
  fun _ _ h => ⟨rfl, h⟩

theorem ofExcept (x : Except ε α) : Alike look (MonadExcept.ofExcept x : ExceptT ε OnHost α)
    (MonadExcept.ofExcept x : ExceptT ε OnHost α) := by
  intro h k heq
  rw [run_ofExcept, run_ofExcept]
  exact ⟨rfl, heq⟩

/-- Alike actions are followed by alike ones. -/
theorem bind {m n : ExceptT ε OnHost α} {f g : α → ExceptT ε OnHost β} (hm : Alike look m n)
    (hf : ∀ a, Alike look (f a) (g a)) :
    Alike look (m >>= f : ExceptT ε OnHost β) (n >>= g : ExceptT ε OnHost β) := by
  intro h k heq
  obtain ⟨hres, hhost⟩ := hm h k heq
  rw [run_bind, run_bind]
  generalize m h = p at hres hhost
  generalize n k = q at hres hhost
  obtain ⟨x, h'⟩ := p
  obtain ⟨y, k'⟩ := q
  obtain rfl : x = y := hres
  cases x with
  | error e => exact ⟨rfl, hhost⟩
  | ok a => exact hf a h' k' hhost

theorem adapt {m n : ExceptT ε OnHost α} (hm : Alike look m n) (f : ε → ε') :
    Alike look (m.adapt f) (n.adapt f) := by
  intro h k heq
  obtain ⟨hres, hhost⟩ := hm h k heq
  exact ⟨congrArg (Except.mapError f) hres, hhost⟩

/-- Records that look the same may stand for each other. -/
theorem report {r r' : Log.Record} (hr : look r = look r') :
    Alike look (liftM (Host.report r) : ExceptT ε OnHost Unit)
      (liftM (Host.report r') : ExceptT ε OnHost Unit) := by
  intro h k heq
  obtain ⟨hhost, hlog⟩ := seenBy_eq_iff.1 heq
  refine ⟨rfl, seenBy_eq_iff.2 ⟨hhost, ?_⟩⟩
  change (h.log ++ [r]).map look = (k.log ++ [r']).map look
  rw [List.map_append, List.map_append, hlog, List.map_singleton, List.map_singleton, hr]

theorem forM_report (rs : List Log.Record) :
    Alike look (rs.forM fun r => liftM (Host.report r) : ExceptT ε OnHost PUnit)
      (rs.forM fun r => liftM (Host.report r) : ExceptT ε OnHost PUnit) := by
  induction rs with
  | nil => exact .pure _
  | cons r rs ih => exact .bind (.report rfl) fun _ => ih

/-- A change that does not depend on what is not seen is alike. -/
theorem modify {f : Host → Host} (hf : ∀ h k : Host, h.seenBy look = k.seenBy look →
    (f h).seenBy look = (f k).seenBy look) :
    Alike look (modify f : ExceptT ε OnHost PUnit) (modify f : ExceptT ε OnHost PUnit) :=
  fun h k heq => ⟨rfl, hf h k heq⟩

/-- What runs aside does not read the log, and what it reports comes after what is there. -/
theorem aside (m : OnHost (Except ε α)) :
    Alike look (ExceptT.mk (Host.aside m)) (ExceptT.mk (Host.aside m)) := by
  intro h k heq
  obtain ⟨hhost, hlog⟩ := seenBy_eq_iff.1 heq
  -- both runs start from the same host
  have hrun : m h.unlogged = m k.unlogged := congrArg m hhost
  change (m h.unlogged).1 = (m k.unlogged).1 ∧
    ({ (m h.unlogged).2 with log := h.log ++ (m h.unlogged).2.log } : Host).seenBy look =
      ({ (m k.unlogged).2 with log := k.log ++ (m k.unlogged).2.log } : Host).seenBy look
  rw [hrun, seenBy_eq_iff]
  refine ⟨rfl, rfl, ?_⟩
  rw [List.map_append, List.map_append, hlog]

end Alike

end HostPrereqs.Host
