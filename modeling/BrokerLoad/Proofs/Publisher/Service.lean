/-
  BrokerLoad/Proofs/Publisher/Service.lean
  ========================================
  A send loop whose calls are answered by the client.

  The client answers all calls of a plan alike, so the answers leave nothing in the log, or
  the same warning once for each message (`published_of_ended`).  A script of answers and
  intervals in turn is fair for every plan (`fair_steady`); with answers at once, as many
  intervals as there are messages are enough (`number_waited`).
-/
import BrokerLoad.Client.RequestQueue
import BrokerLoad.Proofs.Publisher.Completion

namespace BrokerLoad

namespace Plan

variable (plan : Plan)

def verdict : Answer :=
  if Client.hasWildcard plan.topic then .refused Client.refusal else .accepted

theorem answer_submission (number : Nat) : Client.answer (plan.submission number) = plan.verdict :=
  rfl

def warnings (n : Nat) : List Diagnostic :=
  if Client.hasWildcard plan.topic then List.replicate n (.publishRejected Client.refusal) else []

theorem warnings_succ (n : Nat) : plan.warnings (n + 1) = plan.warnings n ++
    (plan.verdict.complaint .publishRejected).filterMap Effect.diagnostic? := by
  unfold warnings verdict
  split
  · rw [List.replicate_succ']
    rfl
  · rfl

end Plan

namespace Publisher

variable {plan : Plan} {s : Surroundings} {x : Session Publisher} {events : List Stimulus}

/-! ### Answers of the client -/

/-- A stimulus that brings no answer but the client's. -/
def FromClient (plan : Plan) (stimulus : Stimulus) : Prop :=
  ∀ answer, stimulus = .resolve answer → ∃ number, answer = Client.answer (plan.submission number)

/-- No call has an answer at once but the client's. -/
def OnClient (plan : Plan) (s : Surroundings) : Prop :=
  ∀ n answer, s.link.atOnce n = some answer →
    ∃ number, answer = Client.answer (plan.submission number)

/-- A call that begins to wait has no answer yet. -/
theorem answer_of_calling {p q : Publisher} {t : Surroundings}
    (hstep : p.step plan s = some (t, q)) (hcalling : q.phase = .calling) :
    t.link.answer = none := by
  cases move_of_step hstep with
  | await hphase hdown hwaits _ =>
    have hcall : p.submit plan s = (t, { p with phase := .calling }) := by
      simpa [step, hphase, hdown] using hstep
    have hlink : (p.submit plan s).1.link.answer = none := by
      simp [submit, Surroundings.call, hwaits, afterCall, Surroundings.raiseIf,
        Surroundings.record]
    rwa [hcall] at hlink
  | _ => cases hcalling

/-- A run on a client: no answer on the way is another than the client's, and the log has
    what the answers taken leave there. -/
structure Heard (plan : Plan) (s : Surroundings) (x : Session Publisher) : Prop where
  atOnce_eq : x.surroundings.link.atOnce = s.link.atOnce
  waiting : x.run.phase = .calling → ∀ answer, x.surroundings.link.answer = some answer →
    answer = plan.verdict
  log : ∃ effects, x.surroundings.effects = s.effects ++ effects ∧
    effects.filterMap Effect.diagnostic? = plan.warnings x.run.submitted.toNat

theorem Heard.change (h : Heard plan s x) {stimulus : Stimulus} (hne : stimulus ≠ .restart)
    (hclient : FromClient plan stimulus) : Heard plan s (x.change (role plan) stimulus) := by
  have hchanged : Session.Changed stimulus x (x.change (role plan) stimulus) :=
    x.changed_change hne
  refine ⟨hchanged.atOnce_eq.trans h.atOnce_eq, ?_, ?_⟩
  · rw [hchanged.run_eq]
    intro hcalling answer hanswer
    cases stimulus with
    | resolve late =>
      obtain ⟨number, hlate⟩ := hclient late rfl
      -- the answer that is there now is the one that has come
      have hsame : some late = some answer := by
        simpa [Session.change, role, hcalling] using hanswer
      rw [← Option.some.inj hsame, hlate, plan.answer_submission]
    | event event =>
      simp only [Session.change] at hanswer
      split at hanswer <;> exact h.waiting hcalling answer hanswer
    | restart => exact absurd rfl hne
    | _ => exact h.waiting hcalling answer hanswer
  · rw [hchanged.effects_eq, hchanged.run_eq]
    exact h.log

theorem Heard.step (h : Heard plan s x)
    (hrun : (role plan).Run (Session.start (role plan) s) events x)
    (hrestart : Stimulus.restart ∉ events) (hcalm : x.surroundings.Calm) (hlink : OnClient plan s)
    {t : Surroundings} {q : Publisher} (hstep : x.run.step plan x.surroundings = some (t, q)) :
    Heard plan s { surroundings := t, run := q } := by
  obtain ⟨effects, heffects, hlog⟩ := h.log
  have hmove := move_of_step hstep
  -- a step that counts nothing logs nothing, and one that counts logs what the verdict calls for
  have hsilent : ∀ more, x.surroundings.Acts more t → more.filterMap Effect.diagnostic? = [] →
      ∃ effects, t.effects = s.effects ++ effects ∧
        effects.filterMap Effect.diagnostic? = plan.warnings x.run.submitted.toNat := by
    intro more hacts hnone
    refine ⟨effects ++ more, ?_, ?_⟩
    · rw [hacts.effects_eq, heffects, List.append_assoc]
    · rw [List.filterMap_append, hlog, hnone, List.append_nil]
  have hcounted : ∀ answer more, answer = plan.verdict → x.surroundings.Acts more t →
      more.filterMap Effect.diagnostic? =
        (answer.complaint .publishRejected).filterMap Effect.diagnostic? →
      (x.run.phase = .written ∨ x.run.phase = .calling) →
      ∃ effects, t.effects = s.effects ++ effects ∧
        effects.filterMap Effect.diagnostic? = plan.warnings (x.run.submitted + 1).toNat := by
    rintro answer more rfl hacts hcomplaint hphase
    refine ⟨effects ++ more, ?_, ?_⟩
    · rw [hacts.effects_eq, heffects, List.append_assoc]
    · rw [List.filterMap_append, hlog, hcomplaint, toNat_counted hrun hrestart hphase,
        plan.warnings_succ]
  obtain ⟨_, hacts⟩ := hmove.acts
  refine ⟨hacts.atOnce_eq.trans h.atOnce_eq, ?_, ?_⟩
  · intro hcalling answer hanswer
    have hnone : t.link.answer = none := answer_of_calling hstep hcalling
    rw [show t.link.answer = some answer from hanswer] at hnone
    cases hnone
  · cases hmove with
    | interrupt _ hraised _ => exact absurd (hcalm.down.symm.trans hraised) (by simp)
    | announce _ _ _ hacts => exact hsilent _ hacts rfl
    | cut _ _ _ _ hlimit _ _ _ => exact absurd hcalm.limit_eq hlimit
    | complete _ _ ht => exact hsilent [] (ht ▸ .refl _) rfl
    | await _ _ _ hacts => exact hsilent _ hacts rfl
    | submit answer hphase _ hatOnce hacts =>
      obtain ⟨number, hanswer⟩ := hlink _ answer (h.atOnce_eq ▸ hatOnce)
      exact hcounted answer _ hanswer hacts rfl (.inl hphase)
    | conclude answer hphase _ hanswer hacts =>
      exact hcounted answer _ (h.waiting hphase answer hanswer) hacts rfl (.inr hphase)
    | proceed _ _ _ _ ht => exact hsilent [] (ht ▸ .refl _) rfl

theorem heard_run (h : (role plan).Run (Session.start (role plan) s) events x)
    (hsparing : Stimulus.Sparing events) (hcalm : s.Calm) (hlink : OnClient plan s)
    (hclient : ∀ stimulus ∈ events, FromClient plan stimulus) : Heard plan s x := by
  induction h with
  | start =>
    refine ⟨rfl, nofun, [], (List.append_nil _).symm, ?_⟩
    unfold Plan.warnings
    split <;> rfl
  | @change events z stimulus hrun ih =>
    have hone := hsparing.restart
    simp only [List.mem_append, List.mem_singleton, not_or] at hone
    have hbefore := ih (fun earlier hmem => hsparing earlier (List.mem_append_left _ hmem))
      fun earlier hmem => hclient earlier (List.mem_append_left _ hmem)
    exact hbefore.change (Ne.symm hone.2) (hclient stimulus (by simp))
  | @step events z t q hrun hstep ih =>
    have hcalm' := hrun.calm (acting plan) hsparing.restart hsparing.shutdown hcalm
    exact (ih hsparing hclient).step hrun hsparing.restart hcalm' hlink hstep

theorem Heard.diagnostics_eq (h : Heard plan s x) :
    (x.deedsSince s).diagnostics = plan.warnings x.run.submitted.toNat := by
  obtain ⟨effects, heffects, hlog⟩ := h.log
  rw [Trace.diagnostics_eq_filterMap, Session.effects_deedsSince heffects, hlog]

/-- The count of a run that has ended is the plan's. -/
theorem submitted_of_ended (h : (role plan).Run (Session.start (role plan) s) events x)
    (hrestart : Stimulus.restart ∉ events) {n : UInt32}
    (hend : x.run.phase = .ended (.finished (.completed n))) : x.run.submitted = n := by
  obtain ⟨effects, answers, standing, -, haccount⟩ := account_run h hrestart
  have hstands := haccount.stands
  simp only [Stands, hend] at hstands
  exact hstands.1.symm

/-- What a run on a client has done when it has completed. -/
theorem published_of_ended (h : (role plan).Run (Session.start (role plan) s) events x)
    (hsparing : Stimulus.Sparing events) (hcalm : s.Calm) (hlink : OnClient plan s)
    (hclient : ∀ stimulus ∈ events, FromClient plan stimulus)
    (hend : x.run.phase = .ended (.finished (.completed plan.count))) :
    (x.deedsSince s).output = plan.announcements plan.count.toNat ∧
      (x.deedsSince s).calls = plan.submissions plan.count.toNat ∧
      (x.deedsSince s).diagnostics = plan.warnings plan.count.toNat := by
  obtain ⟨-, hcompleted⟩ := result_of_ended h hsparing hcalm hend
  refine ⟨hcompleted.output, hcompleted.calls, ?_⟩
  rw [(heard_run h hsparing hcalm hlink hclient).diagnostics_eq,
    submitted_of_ended h hsparing.restart hend]

/-! ### Steady scripts -/

theorem now_resume (x : Session Publisher) :
    (x.resume (role plan)).surroundings.now = x.surroundings.now := by
  obtain ⟨effects, hacts⟩ := Role.Acting.resume (acting plan) x
  exact hacts.now_eq

def steady (plan : Plan) (n : Nat) : Session.Cue :=
  .stimulus (if n % 2 = 0 then .resolve plan.verdict else .advance plan.interval) false

theorem fair_steady (h : (role plan).Run (Session.start (role plan) s) events x)
    (hsparing : Stimulus.Sparing events) : Fair plan x (steady plan) := by
  have hspares : ∀ n, (steady plan n).Brings Stimulus.Spares := by
    intro n
    by_cases heven : n % 2 = 0 <;> simp [steady, heven, Session.Cue.Brings, Stimulus.Spares]
  -- an answer leaves the clock alone, and an interval moves it by itself
  have hresolve : ∀ y : Session Publisher,
      (y.react (role plan) (.resolve plan.verdict)).surroundings.now = y.surroundings.now := by
    intro y
    rw [Session.react, now_resume, Session.change]
    split <;> rfl
  have hadvance : ∀ y : Session Publisher,
      (y.react (role plan) (.advance plan.interval)).surroundings.now =
        y.surroundings.now + plan.interval := by
    intro y
    rw [Session.react, now_resume]
    rfl
  refine ⟨hspares, fun n => ⟨n, Nat.le_refl n, rfl⟩, ?_, ?_⟩
  · intro n _
    refine ⟨2 * n, plan.verdict, false, by omega, ?_⟩
    simp [steady]
  · intro n deadline hpausing
    obtain ⟨_, -, hrun⟩ := run_playing h hsparing hspares n
    have hle := deadline_le_add hrun hpausing
    -- one of the next two cues lets the interval pass
    refine ⟨n + 2, Nat.le_add_right n 2, ?_⟩
    have hnow : (x.playing (role plan) (steady plan) (n + 2)).surroundings.now =
        (x.playing (role plan) (steady plan) n).surroundings.now + plan.interval := by
      by_cases heven : n % 2 = 0
      · have hodd : ¬ (n + 1) % 2 = 0 := by omega
        simp only [Session.playing, Session.play, steady, heven, hodd, if_true, if_false,
          hadvance, hresolve]
      · have hnext : (n + 1) % 2 = 0 := by omega
        simp only [Session.playing, Session.play, steady, heven, hnext, if_true, if_false,
          hadvance, hresolve]
    rwa [hnow]

/-! ### The scripted send loop -/

/-- A run without waiting calls that rests has completed, or is in a pause. -/
theorem rest_of_immediate (h : (role plan).Run (Session.start (role plan) s) events x)
    (hsparing : Stimulus.Sparing events) (hcalm : s.Calm) (hlink : ∀ n, s.link.atOnce n ≠ none)
    (hrest : x.run.step plan x.surroundings = none) :
    x.run.phase = .ended (.finished (.completed plan.count)) ∨
      ((∃ deadline, x.run.phase = .pausing deadline) ∧ 0 < x.run.number.toNat ∧
        x.run.number.toNat ≤ plan.count.toNat) := by
  rcases step_eq_none_iff.mp hrest with ⟨result, hend⟩ | ⟨-, ⟨hcalling, -⟩ |
    ⟨deadline, hpausing, -⟩⟩
  · obtain ⟨rfl, -⟩ := result_of_ended h hsparing hcalm hend
    exact .inl hend
  · exact absurd hcalling (never_waits h hsparing.restart hlink)
  · obtain ⟨effects, answers, standing, -, haccount⟩ := account_run h hsparing.restart
    have hstands := haccount.stands
    simp only [Stands, hpausing] at hstands
    have hpos : 0 < answers.length := haccount.submitted ▸ hstands.2
    refine .inr ⟨⟨deadline, hpausing⟩, ?_, haccount.number_le⟩
    rw [haccount.number]
    omega

/-- An interval later, a run in a pause has begun another message, or completed. -/
theorem number_react (h : (role plan).Run (Session.start (role plan) s) events x)
    (hsparing : Stimulus.Sparing events) (hcalm : s.Calm) (hlink : ∀ n, s.link.atOnce n ≠ none)
    {deadline : Nat} (hpausing : x.run.phase = .pausing deadline)
    (hle : x.run.number.toNat ≤ plan.count.toNat) :
    let y := x.react (role plan) (.advance plan.interval)
    y.run.phase = .ended (.finished (.completed plan.count)) ∨
      ((∃ deadline, y.run.phase = .pausing deadline) ∧
        x.run.number.toNat < y.run.number.toNat ∧ y.run.number.toNat ≤ plan.count.toNat) := by
  intro y
  have hsparing' : Stimulus.Sparing (events ++ [.advance plan.interval]) :=
    hsparing.append (List.forall_mem_singleton.mpr trivial)
  have hrest : y.run.step plan y.surroundings = none := (role plan).activity.step_settle _ _
  rcases rest_of_immediate (h.react _) hsparing' hcalm hlink hrest with hend | ⟨hpause, -, hle'⟩
  · exact .inl hend
  refine .inr ⟨hpause, ?_, hle'⟩
  -- the pause is over, so a step was taken, and the run got lighter
  let z := x.change (role plan) (.advance plan.interval)
  have hable : z.run.step plan z.surroundings ≠ none :=
    able_of_passed hpausing (deadline_le_add h hpausing)
  have hrun : (role plan).Run z [] y := Role.Run.start.resume
  rcases lighter_or_same hrun List.not_mem_nil with hlighter | ⟨-, hsame⟩
  · obtain ⟨later, hlater⟩ : ∃ later, y.run.phase = .pausing later := hpause
    have hz : z.run.phase = .pausing deadline := hpausing
    have hnumber : z.run.number = x.run.number := rfl
    simp only [weight, hz, hlater, Phase.weight, hnumber] at hlighter
    omega
  · exact absurd (hsame hrest) hable

def waited (plan : Plan) (k : Nat) : Session Publisher :=
  (List.replicate k (Stimulus.advance plan.interval)).foldl (Session.react (role plan))
    ((Session.start (role plan) { link := .immediate fun _ => plan.verdict }).resume (role plan))

theorem waited_succ (plan : Plan) (k : Nat) :
    waited plan (k + 1) = (waited plan k).react (role plan) (.advance plan.interval) := by
  rw [waited, List.replicate_succ', List.foldl_append]
  rfl

theorem run_waited (plan : Plan) (k : Nat) :
    (role plan).Run (Session.start (role plan) { link := .immediate fun _ => plan.verdict })
      (List.replicate k (.advance plan.interval)) (waited plan k) :=
  Role.Run.start.resume.foldl_react _

theorem sparing_waited (plan : Plan) (k : Nat) :
    Stimulus.Sparing (List.replicate k (.advance plan.interval)) := by
  intro stimulus hmem
  rw [List.eq_of_mem_replicate hmem]
  trivial

/-- Every interval brings another message, until there is none left. -/
theorem number_waited (plan : Plan) (k : Nat) :
    (waited plan k).run.phase = .ended (.finished (.completed plan.count)) ∨
      ((∃ deadline, (waited plan k).run.phase = .pausing deadline) ∧
        k < (waited plan k).run.number.toNat ∧
        (waited plan k).run.number.toNat ≤ plan.count.toNat) := by
  have hcalm : ({ link := .immediate fun _ => plan.verdict } : Surroundings).Calm :=
    ⟨rfl, rfl, rfl, rfl, rfl⟩
  induction k with
  | zero =>
    exact rest_of_immediate (run_waited plan 0) (sparing_waited plan 0) hcalm nofun
      ((role plan).activity.step_settle _ _)
  | succ k ih =>
    rw [waited_succ]
    rcases ih with hend | ⟨⟨deadline, hpausing⟩, hlt, hle⟩
    · left
      have hlater : (role plan).Run (waited plan k) [.advance plan.interval]
          ((waited plan k).react (role plan) (.advance plan.interval)) := Role.Run.start.react _
      rw [(run_of_ended hend hlater (by simp)).1, hend]
    · -- each interval begins at least one more message
      rcases number_react (run_waited plan k) (sparing_waited plan k) hcalm nofun hpausing hle with
        hend | ⟨hpause, hmore, hle'⟩
      · exact .inl hend
      · exact .inr ⟨hpause, by omega, hle'⟩

end Publisher

end BrokerLoad
