import HostPrereqs.Proofs.Host.Dialogue
import HostPrereqs.Proofs.Host.Keeping

/-!
# Predicate — questions as dialogues

Asking goes round by round.  In each round the prompt is written and at most one line is read.  The
round comes out as what the answer decides (`round_whole`), unless reading or writing fails
(`round_broken`).  So asking is a dialogue of exchanges with the same prompt and default, which the
first answer that decides settles, if none breaks off before (`ask_dialogue`); nothing is read while
the default is to be used.

No round changes the surroundings of the host (`surroundings_ask`).
-/

namespace HostPrereqs.Question

open Host (Dialogue Asked Writes Keeps surroundings)

variable {prompt default : String} {byDefault b : Bool} {h h' : Host} {answer : String}

/-! ### Surroundings -/

theorem surroundings_takeDefault (prompt default : String) (byDefault : Bool) :
    Keeps surroundings (takeDefault prompt default byDefault) :=
  .bind (.lift (Host.keeps_report _).surroundings) fun _ => .pure _

theorem surroundings_respond (prompt default : String) (byDefault : Bool)
    (answer : Option String) : Keeps surroundings (respond prompt default byDefault answer) := by
  unfold respond
  split
  · exact .bind (Host.surroundings_write _) fun _ => surroundings_takeDefault _ _ _
  · split
    · exact surroundings_takeDefault _ _ _
    · split
      · exact .pure _
      · exact .bind (Host.surroundings_write _) fun _ => .pure none

theorem surroundings_round (prompt default : String) (byDefault : Bool) :
    Keeps surroundings (round prompt default byDefault) :=
  .bind (Host.surroundings_write _) fun _ =>
    .bind Host.surroundings_readLine fun _ => surroundings_respond _ _ _ _

theorem surroundings_ask (prompt default : String) (byDefault : Bool) (h : Host) :
    (ask prompt default byDefault h).2.surroundings = h.surroundings := by
  fun_induction ask prompt default byDefault h with
  | case1 h b h' hr | case3 h cause h' hr =>
      rw [← surroundings_round prompt default byDefault h, hr]
  | case2 h h' hr ih => rw [ih, ← surroundings_round prompt default byDefault h, hr]

/-! ### What is written for an answer -/

/-- Without an answer the default is written, and it decides. -/
theorem writes_default (prompt : String) (hdefault : decision? default = some byDefault)
    (h : Host) :
    Writes [default ++ "\n"] (decision? default) (respond prompt default byDefault none) h := by
  rw [hdefault]
  exact .cons (.reported _ _)

/-- An answer decides, or it is corrected. -/
theorem writes_corrections (prompt default : String) (byDefault : Bool)
    (hanswer : answer.isEmpty = false) (h : Host) :
    Writes (corrections answer) (decision? answer)
      (respond prompt default byDefault (some answer)) h := by
  rw [respond, if_neg (by simp [hanswer]), corrections]
  cases decision? answer with
  | some b => exact .pure _ _
  | none => exact .cons (.pure _ _)

variable {x : Exchange}

theorem writes_reply_of_none (hx : x.answer? = none)
    (hdefault : decision? x.default = some byDefault) (interactive : Bool) (h : Host) :
    Writes (x.reply interactive) (decision? x.taken)
      (respond x.prompt x.default byDefault none) h := by
  rw [Exchange.reply, Exchange.taken, hx]
  exact writes_default x.prompt hdefault h

/-- The reply to a line is written, and the answer that counts decides. -/
theorem writes_reply (hx : x.answer? = some answer)
    (hdefault : decision? x.default = some byDefault) (interactive : Bool) (h : Host) :
    Writes (x.reply interactive) (decision? x.taken)
      (Host.acknowledge interactive answer >>= respond x.prompt x.default byDefault) h := by
  cases hempty : answer.isEmpty with
  | true =>
      rw [Exchange.reply_of_empty hx hempty, Exchange.taken_of_empty hx hempty,
        Host.acknowledge]
      cases interactive with
      | true =>
          have hrun : respond x.prompt x.default byDefault (some answer) =
              takeDefault x.prompt x.default byDefault := by rw [respond, if_pos hempty]
          rw [hdefault]
          change Writes [] (some byDefault) (respond x.prompt x.default byDefault (some answer)) h
          rw [hrun]
          exact .reported _ _
      | false =>
          rw [hempty]
          exact writes_default x.prompt hdefault h
  | false =>
      have hcorrections := writes_corrections x.prompt x.default byDefault hempty
      rw [Exchange.reply_of_answer hx hempty, Exchange.taken_of_answer hx hempty,
        Host.acknowledge, hempty]
      cases interactive with
      | true => exact hcorrections h
      | false =>
          simp only [Bool.false_eq_true, if_false, bind_assoc, pure_bind]
          exact .cons (hcorrections _)

/-! ### Rounds -/

/-- The exchange of the next round, if it does not break off. -/
def nextExchange (prompt default : String) (h : Host) : Exchange :=
  ⟨prompt, default, h.nextLine?, none⟩

/-- Whether nothing goes wrong in the next round. -/
def roundSucceeds (prompt default : String) (h : Host) : Bool :=
  !h.readingFails && h.takesAll ((nextExchange prompt default h).texts h.isInteractive)

/-- An exchange from where its line has been read. -/
theorem exchange_cases {x : Exchange} {a : Option Bool} {m : HostAction (Option Bool)} {k : Host}
    (hwhole : x.brokenAt = none) (hlines : h.unread = x.line.toList ++ k.unread)
    (hwritten : k.written = (h.wrote (asked x.prompt x.default)).written)
    (hstreams : k.streams = h.streams) (hm : Writes (x.reply h.isInteractive) a m k) :
    ((h.wrote (asked x.prompt x.default)).takesAll (x.reply h.isInteractive) = true ∧
      (m k).1 = .ok a ∧ Dialogue h [x] (m k).2) ∨
    ((h.wrote (asked x.prompt x.default)).takesAll (x.reply h.isInteractive) = false ∧
      (∃ e, (m k).1 = .error e) ∧
      ∃ n, Dialogue h [⟨x.prompt, x.default, x.line, some n⟩] (m k).2) := by
  have hshown : k.shown = h.shown := by
    funext text
    rw [Host.shown, Host.shown, hstreams]
  rw [← Host.takesAll_congr (h := h.wrote _) hstreams hwritten]
  rcases hm with ⟨htakes, rs, hrun⟩ | ⟨htakes, n, hrun⟩
  · rw [hrun]
    refine .inl ⟨htakes, rfl, .whole hwhole hlines ?_ hstreams⟩
    rw [Exchange.texts, Host.wroteAll_cons]
    simp only [Host.wroteAll, hwritten, hshown]
    rfl
  · rw [hrun]
    refine .inr ⟨htakes, ⟨_, rfl⟩, (h.shown (asked x.prompt x.default)).toList.length + n,
      .broken rfl hlines ?_ hstreams⟩
    rw [Exchange.texts, ← Host.wroteSome_wrote]
    simp only [Host.wroteSome, hwritten, hshown]
    rfl

/-- In one round the prompt is written and at most one line is read.  What is then written for it
either succeeds, and the answer decides, or it breaks off. -/
theorem round_cases (hdefault : decision? default = some byDefault) (prompt : String) (h : Host) :
    (roundSucceeds prompt default h = true ∧
      (round prompt default byDefault h).1 = .ok (decision? (nextExchange prompt default h).taken) ∧
      Dialogue h [nextExchange prompt default h] (round prompt default byDefault h).2) ∨
    (roundSucceeds prompt default h = false ∧
      (∃ e, (round prompt default byDefault h).1 = .error e) ∧
      ∃ line n, (h.usesDefaults = true → line = none) ∧
        Dialogue h [⟨prompt, default, line, some n⟩] (round prompt default byDefault h).2) := by
  rw [round, Host.run_bind, Host.write]
  cases hstops : h.stops? (asked prompt default) with
  | some n =>
      -- the prompt is not taken
      obtain ⟨m, hm⟩ := Host.wroteStart_eq h (asked prompt default) [default ++ "\n"] n
      refine .inr ⟨?_, ⟨_, rfl⟩, none, m, fun _ => rfl, ?_⟩
      · rw [roundSucceeds, Exchange.texts, Host.takesAll]
        simp [nextExchange, hstops]
      · exact .broken rfl rfl (congrArg Host.written hm) rfl
  | none =>
      dsimp only
      have hfirst : ∀ texts, h.takesAll (asked prompt default :: texts) =
          (h.wrote (asked prompt default)).takesAll texts := by
        intro texts
        rw [Host.takesAll, hstops, Option.isNone_none, Bool.true_and]
      rw [roundSucceeds, Exchange.texts, nextExchange]
      rcases Host.readLine_cases (h.wrote (asked prompt default)) with
        ⟨hfails, hread⟩ | ⟨hfails, ⟨hnext, hread⟩ | ⟨line, rest, hnext, hunread, hread⟩⟩
      · -- the line cannot be read
        replace hfails : h.readingFails = true := hfails
        rw [hfails, Host.run_bind_of_error _ hread]
        refine .inr ⟨rfl, ⟨_, rfl⟩, none, (h.shown (asked prompt default)).toList.length + 0,
          fun _ => rfl, .broken rfl rfl ?_ rfl⟩
        rw [Exchange.texts, ← Host.wroteSome_wrote]
        simp [Host.wroteSome]
      · -- there is no line
        replace hfails : h.readingFails = false := hfails
        replace hnext : h.nextLine? = none := hnext
        rw [hfails, Host.run_bind_of_ok _ hread, hnext]
        have hends := exchange_cases (h := h) (x := ⟨prompt, default, none, none⟩)
          (k := h.wrote (asked prompt default)) rfl rfl rfl rfl
          (writes_reply_of_none rfl hdefault h.isInteractive _)
        simp only [hfirst, Bool.not_false, Bool.true_and]
        refine hends.imp_right ?_
        rintro ⟨htakes, herror, n, hdialogue⟩
        exact ⟨htakes, herror, none, n, fun _ => rfl, hdialogue⟩
      · -- a line is read
        replace hfails : h.readingFails = false := hfails
        replace hnext : h.nextLine? = some line := hnext
        have hattended : h.usesDefaults = false := by
          cases husing : h.usesDefaults with
          | false => rfl
          | true => rw [Host.nextLine?, husing] at hnext; cases hnext
        have hends := exchange_cases (h := h) (x := ⟨prompt, default, some line, none⟩)
          (k := { h.wrote (asked prompt default) with input := rest }) rfl hunread rfl rfl
          (writes_reply rfl hdefault h.isInteractive _)
        have hrun : (Host.readLine >>= respond prompt default byDefault)
              (h.wrote (asked prompt default)) =
            (Host.acknowledge h.isInteractive (String.ofList (Host.lineText line)) >>=
              respond prompt default byDefault)
              { h.wrote (asked prompt default) with input := rest } := by
          rw [Host.run_bind, hread, Host.run_bind]
          rfl
        rw [hfails, hrun, hnext]
        simp only [hfirst, Bool.not_false, Bool.true_and]
        refine hends.imp_right ?_
        rintro ⟨htakes, herror, n, hdialogue⟩
        exact ⟨htakes, herror, some line, n, fun husing => by simp [hattended] at husing, hdialogue⟩

/-- Rounds leave open whether questions take their defaults. -/
theorem usesDefaults_of_round {result : Except HostFault (Option Bool)}
    (hr : round prompt default byDefault h = (result, h')) : h'.usesDefaults = h.usesDefaults := by
  refine Host.usesDefaults_congr ?_
  rw [← surroundings_round prompt default byDefault h, hr]

/-! ### Asking -/

/-- Asking is a dialogue about the prompt and the default.  What it comes out as is what the
exchanges settle, unless it fails because one of them breaks off. -/
theorem ask_dialogue (hdefault : decision? default = some byDefault) (prompt : String) (h : Host) :
    ∃ xs, Dialogue h xs (ask prompt default byDefault h).2 ∧
      (∀ x ∈ xs, x.BelongsTo ⟨"y_n", [prompt, default]⟩ h) ∧
      ((∃ b, Settled b xs ∧ (ask prompt default byDefault h).1 = .ok b) ∨
        (BrokenOff xs ∧ ∃ e, (ask prompt default byDefault h).1 = .error e)) := by
  fun_induction ask prompt default byDefault h with
  | case1 h b h' hr =>
      obtain ⟨-, hresult, hdialogue⟩ | ⟨-, ⟨e, hresult⟩, -⟩ := round_cases hdefault prompt h
      · rw [hr] at hresult hdialogue
        refine ⟨_, hdialogue, List.forall_mem_singleton.2 ⟨rfl, fun husing => if_pos husing⟩,
          .inl ⟨b, .decided rfl (Except.ok.inj hresult).symm, rfl⟩⟩
      · rw [hr] at hresult
        cases hresult
  | case2 h h' hr ih =>
      obtain ⟨-, hresult, hdialogue⟩ | ⟨-, ⟨e, hresult⟩, -⟩ := round_cases hdefault prompt h
      · rw [hr] at hresult hdialogue
        have hnone := (Except.ok.inj hresult).symm
        obtain ⟨xs, hrest, hxs, hends⟩ := ih
        refine ⟨_, hdialogue.trans hrest, List.forall_mem_cons.2
          ⟨⟨rfl, fun husing => if_pos husing⟩, fun x hx => ⟨(hxs x hx).call, ?_⟩⟩, ?_⟩
        · rw [← usesDefaults_of_round hr]
          exact (hxs x hx).line
        · exact hends.imp (fun ⟨b, hsettled, heq⟩ => ⟨b, .corrected rfl hnone hsettled, heq⟩)
            fun ⟨hbroken, herror⟩ => ⟨.corrected rfl hnone hbroken, herror⟩
      · rw [hr] at hresult
        cases hresult
  | case3 h cause h' hr =>
      obtain ⟨-, hresult, -⟩ | ⟨-, -, line, n, hline, hdialogue⟩ := round_cases hdefault prompt h
      · rw [hr] at hresult
        cases hresult
      · rw [hr] at hdialogue
        exact ⟨_, hdialogue, List.forall_mem_singleton.2 ⟨rfl, hline⟩,
          .inr ⟨.broken rfl, cause, rfl⟩⟩

/-- A question has a text and a default that decides. -/
def IsWellPut (prompt default : String) : Prop :=
  prompt.isEmpty = false ∧ (decision? default).isSome = true

/-- A question with a text, and a default that decides, is asked. -/
theorem run_of_decides (hprompt : prompt.isEmpty = false) (hdefault : decision? default = some b)
    (h : Host) :
    run prompt default h =
      ((ask prompt default b h).1.mapError .hostFault, (ask prompt default b h).2) := by
  rw [run, hprompt, hdefault]
  rfl

theorem run_dialogue (prompt default : String) (h : Host) :
    ∃ xs, Dialogue h xs (run prompt default h).2 ∧
      Asked (IsWellPut prompt default) ⟨"y_n", [prompt, default]⟩ h (run prompt default h).1
        xs := by
  by_cases hput : IsWellPut prompt default
  · obtain ⟨hprompt, hdefault⟩ := hput
    obtain ⟨byDefault, hdefault⟩ := Option.isSome_iff_exists.1 hdefault
    obtain ⟨xs, hxs, hbelong, hends⟩ := ask_dialogue hdefault prompt h
    rw [run_of_decides hprompt hdefault]
    refine ⟨xs, hxs, hbelong, fun _ => hends.imp ?_ ?_, fun hnot => absurd ?_ hnot⟩
    · exact fun ⟨b, hsettled, heq⟩ => ⟨b, hsettled, congrArg (Except.mapError _) heq⟩
    · exact fun ⟨hbroken, e, heq⟩ => ⟨hbroken, _, congrArg (Except.mapError _) heq⟩
    · exact ⟨hprompt, by rw [hdefault]; rfl⟩
  · refine ⟨[], ?_, .nothing hput⟩
    unfold run
    split
    · exact .refl h
    · rename_i hprompt
      cases hdefault : decision? default with
      | none => exact .refl h
      | some byDefault => exact absurd ⟨by simpa using hprompt, by rw [hdefault]; rfl⟩ hput

end HostPrereqs.Question
