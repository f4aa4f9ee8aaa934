/-
  BrokerLoad/Proofs/Publisher/Completion.lean
  ===========================================
  How a publisher run ends that nobody interrupts and whose writer does not fail.

  It has one way to end, after all messages and the last pause (`result_of_ended`,
  `pause_before_end`), whatever the answers were, and it does so as soon as they are
  there (`resume_of_all_submitted`).

  That it does end is an argument about rest.  Between two moments the run has either
  taken a step, which lowers its weight, or it is where it was, and then a step that was
  open to it still is (`lighter_or_same`).  So a run that is resumed again and again gets
  lighter whenever something it waits for comes (`lighter_of_able`), and a fair script
  brings it all it waits for (`ends_of_fair`).
-/
import BrokerLoad.Proofs.Publisher.Interruption

namespace BrokerLoad

/-! ### Endless scripts -/

/-- A stimulus that neither abandons a run nor raises the signal. -/
def Stimulus.Spares : Stimulus → Prop
  | .restart => False
  | .shutdown => False
  | _ => True

def Stimulus.Sparing (events : List Stimulus) : Prop := ∀ stimulus ∈ events, stimulus.Spares

namespace Stimulus.Sparing

variable {events : List Stimulus}

theorem restart (h : Sparing events) : .restart ∉ events := fun hmem => h _ hmem

theorem shutdown (h : Sparing events) : .shutdown ∉ events := fun hmem => h _ hmem

theorem nil : Sparing [] := fun _ hmem => absurd hmem List.not_mem_nil

theorem append {more : List Stimulus} (h : Sparing events) (g : Sparing more) :
    Sparing (events ++ more) :=
  List.forall_mem_append.mpr ⟨h, g⟩

end Stimulus.Sparing

namespace Session

variable {σ : Type}

def Cue.Brings (kind : Stimulus → Prop) : Cue → Prop
  | .stimulus change _ => kind change
  | .run _ => kind (.advance 1)

/-- A cue that lets the run go on. -/
def Cue.Resumes : Cue → Prop
  | .stimulus _ held => held = false
  | .run _ => True

/-- The clock never goes back. -/
theorem now_le_change (x : Session σ) (role : Role σ) (stimulus : Stimulus) :
    x.surroundings.now ≤ (x.change role stimulus).surroundings.now := by
  cases stimulus with
  | advance ms => exact Nat.le_add_right _ ms
  | resolve answer =>
    simp only [change]
    split <;> exact Nat.le_refl _
  | event event =>
    simp only [change]
    split <;> exact Nat.le_refl _
  | _ => exact Nat.le_refl _

def playing (role : Role σ) (x : Session σ) (cues : Nat → Cue) : Nat → Session σ
  | 0 => x
  | n + 1 => (playing role x cues n).play role (cues n)

end Session

namespace Role

variable {σ : Type} {role : Role σ} {x y : Session σ} {events : List Stimulus}
  {kind : Stimulus → Prop}

theorem Run.tick (h : role.Run x events y) (hevents : ∀ stimulus ∈ events, kind stimulus)
    (hadvance : kind (.advance 1)) (ms : Nat) :
    ∃ events, (∀ stimulus ∈ events, kind stimulus) ∧ role.Run x events (y.tick role ms) := by
  induction ms generalizing y events with
  | zero => exact ⟨events, hevents, h⟩
  | succ ms ih =>
    unfold Session.tick
    split
    · exact ⟨events, hevents, h⟩
    · refine ih (h.react (.advance 1)) ?_
      exact List.forall_mem_append.mpr ⟨hevents, List.forall_mem_singleton.mpr hadvance⟩

theorem Run.play (h : role.Run x events y) (hevents : ∀ stimulus ∈ events, kind stimulus)
    {cue : Session.Cue} (hcue : cue.Brings kind) :
    ∃ events, (∀ stimulus ∈ events, kind stimulus) ∧ role.Run x events (y.play role cue) := by
  rcases cue with ⟨stimulus, _ | _⟩ | ms
  · refine ⟨_, ?_, h.react stimulus⟩
    exact List.forall_mem_append.mpr ⟨hevents, List.forall_mem_singleton.mpr hcue⟩
  · refine ⟨_, ?_, h.change stimulus⟩
    exact List.forall_mem_append.mpr ⟨hevents, List.forall_mem_singleton.mpr hcue⟩
  · exact h.resume.tick hevents hcue ms

theorem Run.playing (role : Role σ) {cues : Nat → Session.Cue}
    (hcues : ∀ n, (cues n).Brings kind) (x : Session σ) {m n : Nat} (hle : m ≤ n) :
    ∃ events, (∀ stimulus ∈ events, kind stimulus) ∧
      role.Run (x.playing role cues m) events (x.playing role cues n) := by
  induction hle with
  | refl => exact ⟨[], by simp, .start⟩
  | @step n _ ih =>
    obtain ⟨events, hevents, hrun⟩ := ih
    exact hrun.play hevents (hcues n)

/-- After a cue that lets the run go on, the run rests. -/
theorem step_play (role : Role σ) (y : Session σ) {cue : Session.Cue} (hcue : cue.Resumes) :
    role.activity.step (y.play role cue).surroundings (y.play role cue).run = none := by
  have htick : ∀ (ms : Nat) (z : Session σ), role.activity.step z.surroundings z.run = none →
      role.activity.step (z.tick role ms).surroundings (z.tick role ms).run = none := by
    intro ms
    induction ms with
    | zero => exact fun _ hrest => hrest
    | succ ms ih =>
      intro z hrest
      unfold Session.tick
      split
      · exact hrest
      · exact ih _ (role.activity.step_settle _ _)
  rcases cue with ⟨stimulus, _ | _⟩ | ms
  · exact role.activity.step_settle _ _
  · cases hcue
  · exact htick ms _ (role.activity.step_settle _ _)

end Role

namespace Publisher

variable {plan : Plan} {s : Surroundings} {x y : Session Publisher} {events : List Stimulus}

/-! ### The only end -/

/-- Completed after every message: each had its line, its call and its answer, once and in
    turn, whatever the answer. -/
structure CompletedAll (plan : Plan) (s : Surroundings) (x : Session Publisher) : Prop where
  phase : x.run.phase = .ended (.finished (.completed plan.count))
  answered : ∃ answers, answers.length = plan.count.toNat ∧
    (x.deedsSince s).effects = exchanges plan answers
  output : (x.deedsSince s).output = plan.announcements plan.count.toNat
  calls : (x.deedsSince s).calls = plan.submissions plan.count.toNat

theorem result_of_ended (h : (role plan).Run (Session.start (role plan) s) events x)
    (hspared : Stimulus.Sparing events) (hcalm : s.Calm) {result : Ending Outcome}
    (hend : x.run.phase = .ended result) :
    result = .finished (.completed plan.count) ∧ CompletedAll plan s x := by
  obtain ⟨effects, answers, standing, heffects, haccount⟩ := account_run h hspared.restart
  have hsince := Session.effects_deedsSince heffects
  have hstands := haccount.stands
  -- an account of each way to end; the last two need a signal, or a writer with a limit
  rcases result with ⟨submitted | submitted⟩ | error
  · simp only [Stands, hend] at hstands
    obtain ⟨rfl, rfl, hcount⟩ := hstands
    have hanswers : answers.length = plan.count.toNat := by
      rw [← hcount, haccount.number]
      rfl
    have hsubmitted : x.run.submitted = plan.count :=
      UInt32.toNat_inj.mp (haccount.submitted.trans hanswers)
    have hall : effects = exchanges plan answers := by
      rw [haccount.effects_eq]
      simp [Standing.effects, epilogue, hend]
    rw [hsubmitted] at hend ⊢
    refine ⟨rfl, hend, ⟨answers, hanswers, hsince.trans hall⟩, ?_, ?_⟩
    · rw [Trace.output_eq_flatMap, hsince, hall, written_exchanges, hanswers]
    · rw [Trace.calls_eq_filterMap, hsince, hall, calls_exchanges, hanswers]
  · have hup := raised_of_interrupted h hspared.restart hend
    have hdown := (h.calm (acting plan) hspared.restart hspared.shutdown hcalm).down
    exact absurd (hdown.symm.trans hup) (by simp)
  · exact absurd hend ((unlimited_run h hspared.restart hcalm.limit_eq).2 error)

/-- Between two messages, and at its end, a run has been through the pause after the last
    one and has seen its end. -/
theorem pause_before_end (h : (role plan).Run (Session.start (role plan) s) events x)
    (hrestart : Stimulus.restart ∉ events)
    (hdone : x.run.phase = .between ∨ ∃ n, x.run.phase = .ended (.finished (.completed n)))
    (hpos : 0 < x.run.number) :
    ∃ before after y deadline, events = before ++ after ∧
      (role plan).Run (Session.start (role plan) s) before y ∧ (role plan).Run y after x ∧
      y.run = { x.run with phase := .pausing deadline } ∧ deadline ≤ y.surroundings.now := by
  induction h with
  | start => exact absurd hpos (by simp [Session.start, role])
  | @change events z stimulus _ ih =>
    simp only [List.mem_append, List.mem_singleton, not_or] at hrestart
    have hrun : (z.change (role plan) stimulus).run = z.run :=
      (z.changed_change (Ne.symm hrestart.2)).run_eq
    rw [hrun] at hdone hpos ⊢
    obtain ⟨before, after, y, deadline, rfl, hbefore, hafter, hpause⟩ := ih hrestart.1 hdone hpos
    exact ⟨before, after ++ [stimulus], y, deadline, List.append_assoc _ _ _, hbefore,
      hafter.change stimulus, hpause⟩
  | @step events z t q hrun hstep ih =>
    have hlast := Role.Run.start.step hstep
    -- the last message is done after its pause, and the plan a step later
    cases move_of_step hstep with
    | complete hphase _ ht =>
      obtain ⟨before, after, y, deadline, hevents, hbefore, hafter, hpause⟩ :=
        ih hrestart (.inl hphase) hpos
      exact ⟨before, after, y, deadline, hevents, hbefore, hafter.step hstep, hpause⟩
    | proceed deadline hphase _ hover _ =>
      refine ⟨events, [], z, deadline, (List.append_nil _).symm, hrun, hlast, ?_, hover⟩
      rw [← hphase]
    | _ => simp [interrupted, counted] at hdone

/-! ### Nothing is missing -/

/-- All calls of the plan have been made and answered, and no pause is on. -/
structure AllSubmitted (plan : Plan) (s : Surroundings) (x : Session Publisher) : Prop where
  calls : (x.deedsSince s).calls = plan.submissions plan.count.toNat
  answered : x.run.phase ≠ .calling
  rested : ∀ deadline, x.run.phase = .pausing deadline → deadline ≤ x.surroundings.now

theorem length_submissions (plan : Plan) (n : Nat) : (plan.submissions n).length = n := by
  simp [Plan.submissions]

/-- Between two messages, a run whose message in hand is the plan's last one completes. -/
theorem settle_of_last {p : Publisher} (t : Surroundings) (hphase : p.phase = .between)
    (hnumber : p.number = plan.count) (hsubmitted : p.submitted = plan.count) :
    (role plan).activity.settle t p =
      (t, { p with phase := .ended (.finished (.completed plan.count)) }) := by
  have hstep : (role plan).activity.step t p =
      some (t, { p with phase := .ended (.finished (.completed plan.count)) }) := by
    simp [role, activity, step, hphase, hnumber, hsubmitted]
  rw [(role plan).activity.settle_of_step hstep]
  exact (role plan).activity.settle_of_rest rfl

/-- Once everything is submitted, a run completes as soon as it is resumed, and does nothing
    else. -/
theorem resume_of_all_submitted (h : (role plan).Run (Session.start (role plan) s) events x)
    (hspared : Stimulus.Sparing events) (hcalm : s.Calm) (hall : AllSubmitted plan s x) :
    (x.resume (role plan)).run.phase = .ended (.finished (.completed plan.count)) ∧
      (x.resume (role plan)).surroundings = x.surroundings := by
  have hdown := (h.calm (acting plan) hspared.restart hspared.shutdown hcalm).down
  obtain ⟨effects, answers, standing, heffects, haccount⟩ := account_run h hspared.restart
  have hsince := Session.effects_deedsSince heffects
  have hcount : answers.length + standing.calls = plan.count.toNat := by
    have hcalls := hall.calls
    rw [Trace.calls_eq_filterMap, hsince, haccount.calls] at hcalls
    have hlength := congrArg List.length hcalls
    rwa [length_submissions, length_submissions] at hlength
  have hstands := haccount.stands
  have hnumber := haccount.number
  -- with no message in hand, all calls are answered, so both numbers are the plan's count
  have hlast : standing = .untouched →
      x.run.number = plan.count ∧ x.run.submitted = plan.count := by
    rintro rfl
    simp only [Standing.calls, Standing.begun, Nat.add_zero] at hcount hnumber
    exact ⟨UInt32.toNat_inj.mp (hnumber.trans hcount),
      UInt32.toNat_inj.mp (haccount.submitted.trans hcount)⟩
  cases hphase : x.run.phase with
  | between =>
    simp only [Stands, hphase] at hstands
    obtain ⟨hn, hsubmitted⟩ := hlast hstands
    have hend := settle_of_last x.surroundings hphase hn hsubmitted
    simp only [Session.resume, hend, and_self]
  | written =>
    -- the line of a message without its call is one message too many
    simp only [Stands, hphase] at hstands
    subst hstands
    have hle := haccount.number_le
    simp only [Standing.calls, Standing.begun] at hcount hnumber
    omega
  | calling => exact absurd hphase hall.answered
  | pausing deadline =>
    -- the pause is over, and after it there is no message left
    simp only [Stands, hphase] at hstands
    obtain ⟨hn, hsubmitted⟩ := hlast hstands.1
    have hstep : (role plan).activity.step x.surroundings x.run =
        some (x.surroundings, { x.run with phase := .between }) := by
      simp [role, activity, step, hphase, hdown, hall.rested deadline hphase]
    have hend : (role plan).activity.settle x.surroundings { x.run with phase := .between } =
        (x.surroundings, { x.run with phase := .ended (.finished (.completed plan.count)) }) :=
      settle_of_last x.surroundings rfl hn hsubmitted
    simp only [Session.resume, (role plan).activity.settle_of_step hstep, hend, and_self]
  | ended result =>
    have hrest : (role plan).activity.step x.surroundings x.run = none :=
      step_eq_none_iff.mpr (.inl ⟨result, hphase⟩)
    simp only [Session.resume, (role plan).activity.settle_of_rest hrest, hphase, and_true]
    rw [(result_of_ended h hspared hcalm hphase).1]

/-- A run that rests has ended exactly if nothing is missing. -/
theorem ended_iff_all_submitted (h : (role plan).Run (Session.start (role plan) s) events x)
    (hspared : Stimulus.Sparing events) (hcalm : s.Calm)
    (hrest : x.run.step plan x.surroundings = none) :
    x.run.phase = .ended (.finished (.completed plan.count)) ↔ AllSubmitted plan s x := by
  constructor
  · intro hend
    obtain ⟨-, hcompleted⟩ := result_of_ended h hspared hcalm hend
    exact ⟨hcompleted.calls, by simp [hend], by simp [hend]⟩
  · intro hall
    obtain ⟨hend, -⟩ := resume_of_all_submitted h hspared hcalm hall
    have hsame : (role plan).activity.settle x.surroundings x.run = (x.surroundings, x.run) :=
      (role plan).activity.settle_of_rest hrest
    rwa [Session.resume, hsame] at hend

/-! ### No number wraps -/

/-- A message in hand is one of the plan's, so its answer can be counted. -/
theorem toNat_counted (h : (role plan).Run (Session.start (role plan) s) events x)
    (hrestart : Stimulus.restart ∉ events)
    (hphase : x.run.phase = .written ∨ x.run.phase = .calling) :
    (x.run.submitted + 1).toNat = x.run.submitted.toNat + 1 := by
  obtain ⟨effects, answers, standing, heffects, haccount⟩ := account_run h hrestart
  have hstands := haccount.stands
  -- where its line is in print it is begun, whether its call was made or not
  have hbegun : standing.begun = 1 := by
    rcases hphase with hphase | hphase
    · simp only [Stands, hphase] at hstands
      rw [hstands]
      rfl
    · simp only [Stands, hphase] at hstands
      rw [hstands]
      rfl
  rw [haccount.toNat_submitted_succ hbegun, haccount.submitted]

theorem number_step (h : (role plan).Run (Session.start (role plan) s) events x)
    (hrestart : Stimulus.restart ∉ events) {t : Surroundings} {q : Publisher}
    (hstep : x.run.step plan x.surroundings = some (t, q)) :
    (q.number = x.run.number ∨ q.number.toNat = x.run.number.toNat + 1) ∧
      (q.submitted = x.run.submitted ∨ q.submitted.toNat = x.run.submitted.toNat + 1) := by
  cases move_of_step hstep with
  | announce _ hlt _ _ => exact ⟨.inr (toNat_number_succ hlt), .inl rfl⟩
  | cut _ _ hlt _ _ _ _ _ => exact ⟨.inr (toNat_number_succ hlt), .inl rfl⟩
  | submit _ hphase _ _ _ => exact ⟨.inl rfl, .inr (toNat_counted h hrestart (.inl hphase))⟩
  | conclude _ hphase _ _ _ => exact ⟨.inl rfl, .inr (toNat_counted h hrestart (.inr hphase))⟩
  | _ => exact ⟨.inl rfl, .inl rfl⟩

/-! ### Progress -/

/-- No pause is longer than the interval of the plan. -/
theorem deadline_le_add (h : (role plan).Run (Session.start (role plan) s) events x)
    {deadline : Nat} (hphase : x.run.phase = .pausing deadline) :
    deadline ≤ x.surroundings.now + plan.interval := by
  induction h with
  | start => cases hphase
  | @change events z stimulus _ ih =>
    by_cases hrestart : stimulus = .restart
    · -- a new run is in no pause
      subst hrestart
      cases hphase
    · rw [(z.changed_change hrestart).run_eq] at hphase
      have hclock := z.now_le_change (role plan) stimulus
      exact Nat.le_trans (ih hphase) (Nat.add_le_add_right hclock plan.interval)
  | @step events z t q _ hstep _ =>
    obtain ⟨effects, hacts⟩ := (move_of_step hstep).acts
    rw [hacts.now_eq]
    cases move_of_step hstep with
    | submit _ _ _ _ _ =>
      cases hphase
      exact Nat.le_refl _
    | conclude _ _ _ _ _ =>
      cases hphase
      exact Nat.le_refl _
    | _ => cases hphase

/-- A change does not take away a step that is open to the run. -/
theorem rest_of_change {stimulus : Stimulus} (hne : stimulus ≠ .restart)
    (hrest : x.run.step plan (x.change (role plan) stimulus).surroundings = none) :
    x.run.step plan x.surroundings = none := by
  have hchanged : Session.Changed stimulus x (x.change (role plan) stimulus) :=
    x.changed_change hne
  rw [step_eq_none_iff] at hrest ⊢
  refine hrest.imp_right ?_
  rintro ⟨hdown, hwaits⟩
  constructor
  · by_contra hup
    exact absurd (hdown.symm.trans (hchanged.raised (by simpa using hup))) (by simp)
  · -- an answer is not taken away, and the clock does not go back
    refine hwaits.imp ?_ ?_
    · rintro ⟨hcalling, hnone⟩
      refine ⟨hcalling, ?_⟩
      cases stimulus with
      | resolve answer => simp [Session.change, role, hcalling] at hnone
      | event event =>
        simp only [Session.change] at hnone
        split at hnone <;> exact hnone
      | restart => exact absurd rfl hne
      | _ => exact hnone
    · rintro ⟨deadline, hpausing, hlt⟩
      exact ⟨deadline, hpausing, Nat.lt_of_le_of_lt (x.now_le_change (role plan) stimulus) hlt⟩

theorem able_of_resolved (hcalling : x.run.phase = .calling) (answer : Answer) :
    (x.change (role plan) (.resolve answer)).run = x.run ∧
      (x.change (role plan) (.resolve answer)).run.step plan
        (x.change (role plan) (.resolve answer)).surroundings ≠ none := by
  have hchange : x.change (role plan) (.resolve answer) =
      { x with surroundings.link.answer := some answer } := by
    simp only [Session.change]
    exact if_pos (by simp [role, hcalling])
  rw [hchange]
  refine ⟨rfl, fun hnone => ?_⟩
  rcases step_eq_none_iff.mp hnone with ⟨result, hend⟩ | ⟨-, ⟨-, hanswer⟩ | ⟨_, hpausing, -⟩⟩
  · exact absurd (hcalling.symm.trans hend) (by simp)
  · cases hanswer
  · exact absurd (hcalling.symm.trans hpausing) (by simp)

theorem able_of_passed {deadline : Nat} (hpausing : x.run.phase = .pausing deadline)
    (hle : deadline ≤ x.surroundings.now) : x.run.step plan x.surroundings ≠ none := by
  intro hnone
  rcases step_eq_none_iff.mp hnone with ⟨result, hend⟩ | ⟨-, ⟨hcalling, -⟩ | ⟨later, hlater, hlt⟩⟩
  · exact absurd (hpausing.symm.trans hend) (by simp)
  · exact absurd (hpausing.symm.trans hcalling) (by simp)
  · obtain rfl : deadline = later := by simpa using hpausing.symm.trans hlater
    omega

/-- Either a step was taken, or the run is where it was, and what was open to it still is. -/
theorem lighter_or_same (h : (role plan).Run x events y)
    (hrestart : Stimulus.restart ∉ events) :
    y.run.weight plan < x.run.weight plan ∨ (y.run = x.run ∧
      (y.run.step plan y.surroundings = none → x.run.step plan x.surroundings = none)) := by
  induction h with
  | start => exact .inr ⟨rfl, id⟩
  | @change events z stimulus _ ih =>
    simp only [List.mem_append, List.mem_singleton, not_or] at hrestart
    have hrun : (z.change (role plan) stimulus).run = z.run :=
      (z.changed_change (Ne.symm hrestart.2)).run_eq
    rw [hrun]
    rcases ih hrestart.1 with hlighter | ⟨hsame, hopen⟩
    · exact .inl hlighter
    · exact .inr ⟨hsame, fun hrest => hopen (rest_of_change (Ne.symm hrestart.2) hrest)⟩
  | @step events z t q _ hstep ih =>
    have hlt : q.weight plan < z.run.weight plan := weight_step plan hstep
    rcases ih hrestart with hlighter | ⟨hsame, -⟩
    · exact .inl (Nat.lt_trans hlt hlighter)
    · exact .inl (hsame ▸ hlt)

/-- A script for the run that goes on from `x`: it neither abandons the run nor raises the
    signal, resumes it again and again, answers every call that waits, and moves the clock
    past every pause, each at some time. -/
structure Fair (plan : Plan) (x : Session Publisher) (cues : Nat → Session.Cue) : Prop where
  spares : ∀ n, (cues n).Brings Stimulus.Spares
  resumes : ∀ n, ∃ m, n ≤ m ∧ (cues m).Resumes
  answers : ∀ n, (x.playing (role plan) cues n).run.phase = .calling →
    ∃ m answer held, n ≤ m ∧ cues m = .stimulus (.resolve answer) held
  passes : ∀ n deadline, (x.playing (role plan) cues n).run.phase = .pausing deadline →
    ∃ m, n ≤ m ∧ deadline ≤ (x.playing (role plan) cues m).surroundings.now

section Fair

variable {cues : Nat → Session.Cue}

theorem sparing_playing (plan : Plan) (hcues : ∀ n, (cues n).Brings Stimulus.Spares)
    (x : Session Publisher) {m n : Nat} (hle : m ≤ n) :
    ∃ events, Stimulus.Sparing events ∧
      (role plan).Run (x.playing (role plan) cues m) events (x.playing (role plan) cues n) :=
  Role.Run.playing (role plan) hcues x hle

/-- Every run of the script from some state on is a run of the plan. -/
theorem run_playing (h : (role plan).Run (Session.start (role plan) s) events x)
    (hspared : Stimulus.Sparing events) (hcues : ∀ n, (cues n).Brings Stimulus.Spares) (n : Nat) :
    ∃ events, Stimulus.Sparing events ∧
      (role plan).Run (Session.start (role plan) s) events (x.playing (role plan) cues n) := by
  obtain ⟨more, hmore, hrun⟩ := sparing_playing plan hcues x (Nat.zero_le n)
  exact ⟨events ++ more, hspared.append hmore, h.trans hrun⟩

/-- A step that is open to the run just before it is resumed is taken. -/
theorem lighter_of_able (hfair : Fair plan x cues) {n : Nat}
    (hrun : (role plan).Run y [] (x.playing (role plan) cues n))
    (hable : y.run.step plan y.surroundings ≠ none) :
    ∃ m, (x.playing (role plan) cues m).run.weight plan < y.run.weight plan := by
  obtain ⟨m, hle, hresumes⟩ := hfair.resumes n
  obtain ⟨more, hmore, hmoreRun⟩ := sparing_playing plan hfair.spares x
    (Nat.le_succ_of_le hle)
  rcases lighter_or_same (hrun.trans hmoreRun) (by simpa using hmore.restart) with
    hlighter | ⟨-, hopen⟩
  · exact ⟨m + 1, hlighter⟩
  · exact absurd (hopen (Role.step_play (role plan) _ hresumes)) hable

/-- A run that waits gets lighter, since what it waits for comes. -/
theorem lighter_of_waiting (hfair : Fair plan x cues) {n : Nat}
    (hwaits : (x.playing (role plan) cues n).run.phase = .calling ∨
      ∃ deadline, (x.playing (role plan) cues n).run.phase = .pausing deadline) :
    ∃ m, (x.playing (role plan) cues m).run.weight plan <
      (x.playing (role plan) cues n).run.weight plan := by
  -- if anything happened since, the run is lighter already
  have hlater : ∀ {m}, n ≤ m → (x.playing (role plan) cues m).run.weight plan <
      (x.playing (role plan) cues n).run.weight plan ∨
        (x.playing (role plan) cues m).run = (x.playing (role plan) cues n).run := by
    intro m hle
    obtain ⟨_, hmore, hrun⟩ := sparing_playing plan hfair.spares x hle
    exact (lighter_or_same hrun hmore.restart).imp_right And.left
  rcases hwaits with hcalling | ⟨deadline, hpausing⟩
  · obtain ⟨m, answer, held, hle, hcue⟩ := hfair.answers n hcalling
    rcases hlater hle with hlighter | hsame
    · exact ⟨m, hlighter⟩
    obtain ⟨hrun, hable⟩ := @able_of_resolved plan _ (hsame ▸ hcalling) answer
    have hnext : (role plan).Run
        ((x.playing (role plan) cues m).change (role plan) (.resolve answer)) []
        (x.playing (role plan) cues (m + 1)) := by
      simp only [Session.playing, hcue]
      cases held with
      | true => exact .start
      | false => exact Role.Run.start.resume
    rw [← hsame, ← hrun]
    exact lighter_of_able hfair hnext hable
  · obtain ⟨m, hle, hpassed⟩ := hfair.passes n deadline hpausing
    rcases hlater hle with hlighter | hsame
    · exact ⟨m, hlighter⟩
    have hable := @able_of_passed plan _ _ (hsame ▸ hpausing) hpassed
    rw [← hsame]
    exact lighter_of_able hfair .start hable

theorem ends_of_fair (h : (role plan).Run (Session.start (role plan) s) events x)
    (hspared : Stimulus.Sparing events) (hcalm : s.Calm) (hfair : Fair plan x cues) (n : Nat) :
    ∃ m, (x.playing (role plan) cues m).run.phase =
      .ended (.finished (.completed plan.count)) := by
  -- on the weight: from a state that waits the run gets to a lighter one
  generalize hweight : (x.playing (role plan) cues n).run.weight plan = w
  induction w using Nat.strongRecOn generalizing n with
  | ind w ih =>
    subst hweight
    obtain ⟨k, hle, hresumes⟩ := hfair.resumes n
    obtain ⟨_, hspared', hrun⟩ := run_playing h hspared hfair.spares (k + 1)
    obtain ⟨_, hmore, hmoreRun⟩ := sparing_playing plan hfair.spares x
      (Nat.le_succ_of_le hle)
    have hnotHeavier : (x.playing (role plan) cues (k + 1)).run.weight plan ≤
        (x.playing (role plan) cues n).run.weight plan := by
      rcases lighter_or_same hmoreRun hmore.restart with hlighter | ⟨hsame, -⟩
      · exact Nat.le_of_lt hlighter
      · exact Nat.le_of_eq (congrArg _ hsame)
    have hgoesOn : ((x.playing (role plan) cues (k + 1)).run.phase = .calling ∨
        ∃ deadline, (x.playing (role plan) cues (k + 1)).run.phase = .pausing deadline) →
        ∃ m, (x.playing (role plan) cues m).run.phase =
          .ended (.finished (.completed plan.count)) := by
      intro hwaits
      obtain ⟨m, hlighter⟩ := lighter_of_waiting hfair hwaits
      exact ih _ (Nat.lt_of_lt_of_le hlighter hnotHeavier) m rfl
    rcases step_eq_none_iff.mp (Role.step_play (role plan) _ hresumes) with
      ⟨result, hend⟩ | ⟨-, ⟨hcalling, -⟩ | ⟨deadline, hpausing, -⟩⟩
    · exact ⟨k + 1, (result_of_ended hrun hspared' hcalm hend).1 ▸ hend⟩
    · exact hgoesOn (.inl hcalling)
    · exact hgoesOn (.inr ⟨deadline, hpausing⟩)

end Fair

/-! ### At once -/

/-- No call waits on a link that answers every call at once. -/
theorem never_waits (h : (role plan).Run (Session.start (role plan) s) events x)
    (hrestart : Stimulus.restart ∉ events) (hlink : ∀ n, s.link.atOnce n ≠ none) :
    x.run.phase ≠ .calling := by
  have hkept := h.invariant hrestart (P := fun y =>
    y.surroundings.link.atOnce = s.link.atOnce ∧ y.run.phase ≠ .calling) ⟨rfl, nofun⟩ ?_ ?_
  · exact hkept.2
  · rintro z w stimulus - ⟨hatOnce, hphase⟩ hchanged
    rw [hchanged.atOnce_eq, hchanged.run_eq]
    exact ⟨hatOnce, hphase⟩
  · rintro z t q ⟨hatOnce, -⟩ hstep
    obtain ⟨effects, hacts⟩ := (move_of_step hstep).acts
    refine ⟨hacts.atOnce_eq.trans hatOnce, ?_⟩
    -- a call begins to wait only without an answer at once
    cases move_of_step hstep with
    | await _ _ hwaits _ => exact absurd (hatOnce ▸ hwaits) (hlink _)
    | _ => nofun

/-- With answers at once and no pause between messages there is nothing to wait for. -/
theorem resume_of_immediate (hcalm : s.Calm) (hinterval : plan.interval = 0)
    (hlink : ∀ n, s.link.atOnce n ≠ none) :
    ((Session.start (role plan) s).resume (role plan)).run.phase =
      .ended (.finished (.completed plan.count)) := by
  have hrun : (role plan).Run (Session.start (role plan) s) []
      ((Session.start (role plan) s).resume (role plan)) := Role.Run.start.resume
  have hrest := (role plan).activity.step_settle s (role plan).start
  rcases step_eq_none_iff.mp hrest with ⟨result, hend⟩ | ⟨-, ⟨hcalling, -⟩ |
    ⟨deadline, hpausing, hlt⟩⟩
  · obtain ⟨rfl, -⟩ := result_of_ended hrun .nil hcalm hend
    exact hend
  · exact absurd hcalling (never_waits hrun List.not_mem_nil hlink)
  · have hlt' : ((Session.start (role plan) s).resume (role plan)).surroundings.now < deadline :=
      hlt
    have hle := deadline_le_add hrun hpausing
    rw [hinterval, Nat.add_zero] at hle
    exact absurd hlt' (Nat.not_lt_of_le hle)

/-! ### All of it -/

/-- On the way to `x` the run was in the pause after its last message, at a moment when that
    was over. -/
def SawLastPause (plan : Plan) (s : Surroundings) (events : List Stimulus)
    (x : Session Publisher) : Prop :=
  ∃ before after y deadline, events = before ++ after ∧
    (role plan).Run (Session.start (role plan) s) before y ∧ (role plan).Run y after x ∧
    y.run = { number := plan.count, submitted := plan.count, phase := .pausing deadline } ∧
    deadline ≤ y.surroundings.now

/-- Let `x` be any state of a run that nobody interrupts and whose writer does not fail,
    whatever the plan, the answers to its calls and the moves of the clock.

    If it has ended, then it completed all messages of the plan, one after the other, each
    with its line, its call and its answer, and the pause after the last one was over.
    Once that is so, its next resumption ends it and does nothing else; where it rests
    before, something of it is missing.

    A step leaves the two numbers of the run as they are or raises them by one, and neither
    gets beyond the count of the plan.

    If from `x` on every call that waits is answered at some time, and the clock moved past
    every pause, it ends.  With answers at once and no interval between the messages, it
    ends in its first resumption. -/
theorem completes (h : (role plan).Run (Session.start (role plan) s) events x)
    (hspared : Stimulus.Sparing events) (hcalm : s.Calm) :
    (∀ result, x.run.phase = .ended result → result = .finished (.completed plan.count) ∧
        CompletedAll plan s x ∧ (0 < plan.count → SawLastPause plan s events x)) ∧
      (AllSubmitted plan s x →
        (x.resume (role plan)).run.phase = .ended (.finished (.completed plan.count)) ∧
          (x.resume (role plan)).surroundings = x.surroundings) ∧
      (x.run.step plan x.surroundings = none →
        (x.run.phase = .ended (.finished (.completed plan.count)) ↔ AllSubmitted plan s x)) ∧
      (x.run.submitted ≤ x.run.number ∧ x.run.number ≤ plan.count ∧
        ∀ t q, x.run.step plan x.surroundings = some (t, q) →
          (q.number = x.run.number ∨ q.number.toNat = x.run.number.toNat + 1) ∧
          (q.submitted = x.run.submitted ∨ q.submitted.toNat = x.run.submitted.toNat + 1)) ∧
      (∀ cues, Fair plan x cues → ∃ n,
        (x.playing (role plan) cues n).run.phase = .ended (.finished (.completed plan.count))) ∧
      (plan.interval = 0 → (∀ n, s.link.atOnce n ≠ none) →
        ((Session.start (role plan) s).resume (role plan)).run.phase =
          .ended (.finished (.completed plan.count))) := by
  obtain ⟨effects, answers, standing, heffects, haccount⟩ := account_run h hspared.restart
  refine ⟨?_, resume_of_all_submitted h hspared hcalm, ended_iff_all_submitted h hspared hcalm,
    ⟨?_, ?_, ?_⟩, ?_, resume_of_immediate hcalm⟩
  · intro result hend
    obtain ⟨rfl, hcompleted⟩ := result_of_ended h hspared hcalm hend
    refine ⟨rfl, hcompleted, fun hpos => ?_⟩
    have hstands := haccount.stands
    simp only [Stands, hend] at hstands
    obtain ⟨hsubmitted, -, hnumber⟩ := hstands
    obtain ⟨before, after, y, deadline, hevents, hbefore, hafter, hpause, hover⟩ :=
      pause_before_end h hspared.restart (.inr ⟨_, hend⟩) (hnumber ▸ hpos)
    refine ⟨before, after, y, deadline, hevents, hbefore, hafter, ?_, hover⟩
    rw [hpause]
    simp only [hnumber, ← hsubmitted]
  · rw [UInt32.le_iff_toNat_le, haccount.submitted, haccount.number]
    exact Nat.le_add_right _ _
  · exact UInt32.le_iff_toNat_le.mpr haccount.number_le
  · exact fun _ _ hstep => number_step h hspared.restart hstep
  · exact fun _ hfair => ends_of_fair h hspared hcalm hfair 0

/-- Both calls of the plan wait, and both are refused: the script is fair, and the run
    completes. -/
theorem completes_after_late_refusals :
    let plan : Plan := { topic := "t", count := 2, interval := 5, qos := .atLeastOnce }
    let s : Surroundings := { link := .deferred }
    let x := (Session.start (role plan) s).resume (role plan)
    let cues : Nat → Session.Cue := fun n =>
      .stimulus (if n % 2 = 0 then .resolve (.refused "full") else .advance 5) false
    (role plan).Run (Session.start (role plan) s) [] x ∧ Stimulus.Sparing [] ∧ s.Calm ∧
      Fair plan x cues ∧ ∃ n, (x.playing (role plan) cues n).run.phase =
        .ended (.finished (.completed 2)) := by
  intro plan s x cues
  have hrun : (role plan).Run (Session.start (role plan) s) [] x := Role.Run.start.resume
  have hspared : Stimulus.Sparing [] := .nil
  have hcalm : s.Calm := ⟨rfl, rfl, rfl, rfl, rfl⟩
  have hspares : ∀ n, (cues n).Brings Stimulus.Spares := by
    intro n
    by_cases heven : n % 2 = 0 <;> simp [cues, heven, Session.Cue.Brings, Stimulus.Spares]
  -- the fourth cue ends the run, and then it stays as it is
  have hended : ∀ n, 4 ≤ n → (x.playing (role plan) cues n).run.phase =
      .ended (.finished (.completed 2)) := by
    intro n hle
    have hfourth : (x.playing (role plan) cues 4).run.phase =
        .ended (.finished (.completed 2)) := by decide
    obtain ⟨_, hmore, hmoreRun⟩ := sparing_playing plan hspares x hle
    rw [(run_of_ended hfourth hmoreRun hmore.restart).1, hfourth]
  have hfair : Fair plan x cues := by
    refine ⟨hspares, fun n => ⟨n, Nat.le_refl n, rfl⟩, ?_, ?_⟩
    · intro n _
      refine ⟨2 * n, .refused "full", false, by omega, ?_⟩
      simp [cues]
    · intro n deadline hpausing
      by_cases hle : 4 ≤ n
      · rw [hended n hle] at hpausing
        cases hpausing
      · have hdeadline : ∀ k < 4, ∀ deadline,
            (x.playing (role plan) cues k).run.phase = .pausing deadline → deadline ≤ 10 := by
          intro k hk deadline hpausing
          have hphases : ∀ k < 4, (x.playing (role plan) cues k).run.phase = .calling ∨
              (x.playing (role plan) cues k).run.phase = .pausing 5 ∨
              (x.playing (role plan) cues k).run.phase = .pausing 10 := by decide
          rcases hphases k hk with hphase | hphase | hphase <;> rw [hphase] at hpausing <;>
            cases hpausing <;> decide
        have hclock : (x.playing (role plan) cues 4).surroundings.now = 10 := by decide
        refine ⟨4, by omega, ?_⟩
        rw [hclock]
        exact hdeadline n (by omega) deadline hpausing
  obtain ⟨-, -, -, -, hends, -⟩ := completes hrun hspared hcalm
  exact ⟨hrun, hspared, hcalm, hfair, hends cues hfair⟩

end Publisher

end BrokerLoad
