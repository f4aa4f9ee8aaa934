/-
  BrokerLoad/Proofs/Publisher/Interruption.lean
  =============================================
  What the shutdown signal does to a publisher run.

  A run that is about to look at the signal, while the signal is up, has one way to
  go on (`run_of_raised`): it stays as it is until its next step, and that step ends
  it.  With the account of the run this gives both statements of this file.

  `interruption_law_iff` says when an interrupted run has as many lines and calls as
  it counts: exactly when it was interrupted between two messages or in a pause.
  `cancellation_wins` says that a signal that goes up before the end of a run is
  never overtaken, by the end of a pause, by an answer or by the end of the plan.
-/
import BrokerLoad.Proofs.Publisher.Account

namespace BrokerLoad

def Effect.interruption? : Effect → Option UInt32
  | reported (.publisherInterrupted submitted) => some submitted
  | _ => none

@[simp] theorem Effect.filterMap_interruption?_writing (octets : Octets) :
    (Effect.writing octets).filterMap Effect.interruption? = [] := by
  cases octets <;> rfl

def Trace.interruptions (trace : Trace) : List UInt32 :=
  trace.effects.filterMap Effect.interruption?

namespace Publisher

variable {plan : Plan} {s : Surroundings} {x y z : Session Publisher} {events : List Stimulus}

/-! ### Reports of an interruption -/

theorem Account.interruptions {p : Publisher} {effects : List Effect} {answers : List Answer}
    {standing : Standing} (h : Account plan p effects answers standing) :
    effects.filterMap Effect.interruption? = p.epilogue.filterMap Effect.interruption? := by
  -- what is done for messages may report refusals, but no interruption
  have hexchanges : (exchanges plan answers).filterMap Effect.interruption? = [] := by
    rw [List.filterMap_eq_nil_iff]
    intro effect heffect
    obtain ⟨⟨answer, number⟩, -, hin⟩ := List.mem_flatMap.mp heffect
    cases answer <;>
      simp only [exchange, Answer.complaint, List.mem_cons, List.not_mem_nil, or_false] at hin <;>
      rcases hin with rfl | rfl | rfl <;> rfl
  have hstanding : (standing.effects plan (answers.length + 1)).filterMap Effect.interruption? =
      [] := by
    cases standing with
    | cut octets => exact Effect.filterMap_interruption?_writing octets
    | _ => rfl
  rw [h.effects_eq, List.filterMap_append, List.filterMap_append, hexchanges, hstanding]
  rfl

/-! ### After the end, and after the signal -/

/-- A run that has ended stays as it is. -/
theorem run_of_ended {result : Ending Outcome} (hend : x.run.phase = .ended result)
    (h : (role plan).Run x events z) (hrestart : Stimulus.restart ∉ events) :
    z.run = x.run ∧ z.surroundings.effects = x.surroundings.effects := by
  refine h.rests (fun t => ?_) hrestart
  change x.run.step plan t = none
  simp [step, hend]

/-- A run that is about to look at a signal that is up stays as it is until its next
    step, and is interrupted then. -/
theorem run_of_raised (hup : x.surroundings.signal.raised = true) (hlooks : x.run.Looks plan)
    (h : (role plan).Run x events z) (hrestart : Stimulus.restart ∉ events) :
    (z.surroundings.signal.raised = true ∧ z.run = x.run ∧
        z.surroundings.effects = x.surroundings.effects) ∨
      (z.run = x.run.interrupted ∧ z.surroundings.effects =
        x.surroundings.effects ++ [.reported (.publisherInterrupted x.run.submitted)]) := by
  refine h.invariant hrestart (P := fun z =>
    (z.surroundings.signal.raised = true ∧ z.run = x.run ∧
        z.surroundings.effects = x.surroundings.effects) ∨
      (z.run = x.run.interrupted ∧ z.surroundings.effects =
        x.surroundings.effects ++ [.reported (.publisherInterrupted x.run.submitted)]))
    (.inl ⟨hup, rfl, rfl⟩) ?_ ?_
  · rintro z w stimulus - (⟨hraised, hrun, heffects⟩ | ⟨hrun, heffects⟩) hchanged
    · exact .inl ⟨hchanged.raised hraised, hchanged.run_eq.trans hrun,
        hchanged.effects_eq.trans heffects⟩
    · exact .inr ⟨hchanged.run_eq.trans hrun, hchanged.effects_eq.trans heffects⟩
  · rintro z t q (⟨hraised, hrun, heffects⟩ | ⟨hrun, -⟩) hstep
    · -- whatever came before it, the next step is the one that looks at the signal
      have hinterrupt := step_of_raised (hrun ▸ hlooks) hraised
      obtain ⟨rfl, rfl⟩ := Prod.mk.inj (Option.some.inj (hinterrupt.symm.trans hstep))
      right
      constructor
      · rw [← hrun]
        rfl
      · rw [← heffects, ← hrun]
        exact (z.surroundings.acts_report _).effects_eq
    · have hrest : z.run.step plan z.surroundings = none := by
        simp [step, hrun, interrupted]
      exact absurd (hrest.symm.trans hstep) (by simp)

/-- A run that was interrupted looked at the signal on the way, while it was up. -/
theorem looked_of_interrupted {n : UInt32} (h : (role plan).Run x events z)
    (hstart : ∀ result, x.run.phase ≠ .ended result)
    (hrestart : Stimulus.restart ∉ events)
    (hend : z.run.phase = .ended (.finished (.interrupted n))) :
    ∃ before after y, events = before ++ after ∧ (role plan).Run x before y ∧
      (role plan).Run y after z ∧ y.surroundings.signal.raised = true ∧ y.run.Looks plan := by
  induction h with
  | start => exact absurd hend (hstart _)
  | @change events z stimulus _ ih =>
    simp only [List.mem_append, List.mem_singleton, not_or] at hrestart
    have hchanged : Session.Changed stimulus z (z.change (role plan) stimulus) :=
      z.changed_change (Ne.symm hrestart.2)
    obtain ⟨before, after, y, rfl, hbefore, hafter, hraised, hlooks⟩ :=
      ih hrestart.1 (hchanged.run_eq ▸ hend)
    exact ⟨before, after ++ [stimulus], y, List.append_assoc _ _ _, hbefore,
      hafter.change stimulus, hraised, hlooks⟩
  | @step events y _ _ hrun hstep _ =>
    cases move_of_step hstep with
    -- no other step ends a run as interrupted
    | interrupt hlooks hraised _ =>
      exact ⟨events, [], y, (List.append_nil _).symm, hrun, .step .start hstep, hraised, hlooks⟩
    | _ => cases hend

/-! ### Lines, calls and count while a run goes on -/

/-- How many lines are in print beyond the counted messages. -/
def Phase.linesAhead : Phase → Nat
  | .written => 1
  | .calling => 1
  | _ => 0

/-- How many calls were made beyond the counted messages. -/
def Phase.callsAhead : Phase → Nat
  | .calling => 1
  | _ => 0

/-- While a run goes on, all its lines are whole, and its phase says how far lines and
    calls are ahead of the count. -/
theorem counts_of_going (h : (role plan).Run (Session.start (role plan) s) events y)
    (hrestart : Stimulus.restart ∉ events) (hgoing : ∀ result, y.run.phase ≠ .ended result) :
    (y.deedsSince s).output =
        plan.announcements (y.run.submitted.toNat + y.run.phase.linesAhead) ∧
      (y.deedsSince s).calls =
        plan.submissions (y.run.submitted.toNat + y.run.phase.callsAhead) ∧
      (y.deedsSince s).interruptions = [] := by
  obtain ⟨effects, answers, standing, heffects, haccount⟩ := account_run h hrestart
  have hsince := Session.effects_deedsSince heffects
  have hwhole := haccount.isWhole fun error => hgoing _
  have hstands := haccount.stands
  -- the phase of a run that goes on says how far the message in hand has come
  have hahead : standing.lines = y.run.phase.linesAhead ∧
      standing.calls = y.run.phase.callsAhead := by
    unfold Stands at hstands
    split at hstands <;> rename_i hphase
    · simp [hstands, hphase, Standing.lines, Standing.calls, Phase.linesAhead, Phase.callsAhead]
    · simp [hstands, hphase, Standing.lines, Standing.calls, Phase.linesAhead, Phase.callsAhead]
    · simp [hstands, hphase, Standing.lines, Standing.calls, Phase.linesAhead, Phase.callsAhead]
    · simp [hstands.1, hphase, Standing.lines, Standing.calls, Phase.linesAhead,
        Phase.callsAhead]
    all_goals exact absurd hphase (hgoing _)
  refine ⟨?_, ?_, ?_⟩
  · rw [Trace.output_eq_flatMap, hsince, haccount.written hwhole, haccount.submitted, hahead.1]
  · rw [Trace.calls_eq_filterMap, hsince, haccount.calls, haccount.submitted, hahead.2]
  · rw [Trace.interruptions, hsince, haccount.interruptions, Account.epilogue_eq_nil hgoing]
    rfl

/-! ### The two statements -/

/-- An interrupted run has exactly as many lines and calls as it counts if it was
    interrupted between two messages or in a pause, and only then.  Interrupted after
    a line, it has one line too many; interrupted while a call waited, one line and
    one call. -/
theorem interruption_law_iff {n : UInt32}
    (h : (role plan).Run (Session.start (role plan) s) events x)
    (hrestart : Stimulus.restart ∉ events)
    (hend : x.run.phase = .ended (.finished (.interrupted n))) :
    (∃ before after y, events = before ++ after ∧
        (role plan).Run (Session.start (role plan) s) before y ∧ (role plan).Run y after x ∧
        y.surroundings.signal.raised = true ∧ y.run.Looks plan) ∧
      ∀ before after y, events = before ++ after →
        (role plan).Run (Session.start (role plan) s) before y → (role plan).Run y after x →
        y.surroundings.signal.raised = true → y.run.Looks plan →
        y.run.submitted = n ∧
          (((x.deedsSince s).output = plan.announcements n.toNat ∧
              (x.deedsSince s).calls = plan.submissions n.toNat) ↔
            y.run.phase = .between ∨ ∃ deadline, y.run.phase = .pausing deadline) ∧
          (y.run.phase = .written →
            (x.deedsSince s).output = plan.announcements (n.toNat + 1) ∧
              (x.deedsSince s).calls = plan.submissions n.toNat) ∧
          (y.run.phase = .calling →
            (x.deedsSince s).output = plan.announcements (n.toNat + 1) ∧
              (x.deedsSince s).calls = plan.submissions (n.toNat + 1)) := by
  refine ⟨looked_of_interrupted h (fun result hphase => by cases hphase) hrestart hend, ?_⟩
  rintro before after y rfl hbefore hafter hraised hlooks
  simp only [List.mem_append, not_or] at hrestart
  obtain ⟨effects, answers, standing, heffects, -⟩ := account_run hbefore hrestart.1
  obtain ⟨houtput, hcalls, -⟩ := counts_of_going hbefore hrestart.1 hlooks.going
  -- when it looked it was still going, so since then the signal has ended it
  rcases run_of_raised hraised hlooks hafter hrestart.2 with ⟨-, hrun, -⟩ | ⟨hrun, hmore⟩
  · exact absurd (hrun ▸ hend) (hlooks.going _)
  · have hn : y.run.submitted = n := by
      rw [hrun] at hend
      simpa [interrupted] using hend
    subst hn
    have hsince := Session.effects_deedsSince_append heffects hmore
    have houtput' : (x.deedsSince s).output =
        plan.announcements (y.run.submitted.toNat + y.run.phase.linesAhead) := by
      rw [Trace.output_of_append hsince, houtput]
      exact List.append_nil _
    have hcalls' : (x.deedsSince s).calls =
        plan.submissions (y.run.submitted.toNat + y.run.phase.callsAhead) := by
      rw [Trace.calls_of_append hsince, hcalls]
      exact List.append_nil _
    rw [houtput', hcalls']
    refine ⟨rfl, ?_, ?_, ?_⟩
    · -- lines and calls agree with the count exactly where neither is ahead of it
      cases hphase : y.run.phase with
      | between => simp [Phase.linesAhead, Phase.callsAhead]
      | written => simp [Phase.linesAhead, plan.announcements_succ_ne]
      | calling => simp [Phase.linesAhead, plan.announcements_succ_ne]
      | pausing deadline => simp [Phase.linesAhead, Phase.callsAhead]
      | ended result => exact absurd hphase (hlooks.going _)
    · intro hphase
      rw [hphase]
      exact ⟨rfl, rfl⟩
    · intro hphase
      rw [hphase]
      exact ⟨rfl, rfl⟩

/-- What the signal has settled in a state: whatever arrives from here on, no line is
    begun and no call made, the run does not complete, and the next resumption ends
    it, with one report that carries the count it has now. -/
structure Cancelled (plan : Plan) (s : Surroundings) (x : Session Publisher) : Prop where
  quiet : ∀ {events z}, Stimulus.restart ∉ events → (role plan).Run x events z →
    (z.deedsSince s).output = (x.deedsSince s).output ∧
      (z.deedsSince s).calls = (x.deedsSince s).calls
  never_completed : ∀ {events z}, Stimulus.restart ∉ events → (role plan).Run x events z →
    ∀ n, z.run.phase ≠ .ended (.finished (.completed n))
  ends : ∀ {events z}, Stimulus.restart ∉ events → (role plan).Run x events z →
    (z.resume (role plan)).run.phase = .ended (.finished (.interrupted x.run.submitted)) ∧
      ((z.resume (role plan)).deedsSince s).interruptions = [x.run.submitted]

theorem cancelled_of_raised (h : (role plan).Run (Session.start (role plan) s) events x)
    (hrestart : Stimulus.restart ∉ events) (hup : x.surroundings.signal.raised = true)
    (hlooks : x.run.Looks plan) : Cancelled plan s x := by
  obtain ⟨effects, answers, standing, heffects, -⟩ := account_run h hrestart
  obtain ⟨-, -, hinterruptions⟩ := counts_of_going h hrestart hlooks.going
  refine ⟨?_, ?_, ?_⟩
  · intro more z hmore hrun
    -- since the signal went up nothing was done, or the one report
    rcases run_of_raised hup hlooks hrun hmore with ⟨-, -, hsame⟩ | ⟨-, hadded⟩
    · have hsince : (z.deedsSince s).effects = (x.deedsSince s).effects := by
        rw [Session.effects_deedsSince heffects]
        exact Session.effects_deedsSince (hsame.trans heffects)
      simp only [Trace.output_eq_flatMap, Trace.calls_eq_filterMap, hsince, and_self]
    · have hsince := Session.effects_deedsSince_append heffects hadded
      rw [Trace.output_of_append hsince, Trace.calls_of_append hsince]
      exact ⟨List.append_nil _, List.append_nil _⟩
  · intro more z hmore hrun n hphase
    rcases run_of_raised hup hlooks hrun hmore with ⟨-, hsame, -⟩ | ⟨hended, -⟩
    · exact hlooks.going _ (hsame ▸ hphase)
    · rw [hended] at hphase
      cases hphase
  · intro more z hmore hrun
    rcases run_of_raised hup hlooks hrun.resume hmore with ⟨hraised, hsame, -⟩ | ⟨hended, hadded⟩
    · -- a run that has settled rests, and this one would still look at the signal
      have hrest := (role plan).activity.step_settle z.surroundings z.run
      have hstep := step_of_raised (hsame ▸ hlooks) hraised
      exact absurd (hrest.symm.trans hstep) (by simp)
    · refine ⟨by rw [hended]; rfl, ?_⟩
      have hsince := Session.effects_deedsSince_append heffects hadded
      rw [Trace.interruptions, hsince, List.filterMap_append]
      rw [Trace.interruptions] at hinterruptions
      rw [hinterruptions]
      rfl

/-- Interrupted in the second pause, the run has two lines and two calls. -/
theorem interruption_law_in_pause :
    let plan : Plan := { topic := "t", count := 10, interval := 60, qos := .exactlyOnce }
    let s : Surroundings := { link := .immediate fun _ => .accepted }
    let y := (((Session.start (role plan) s).resume (role plan)).react (role plan)
      (.advance 60)).change (role plan) .shutdown
    let x := y.resume (role plan)
    (role plan).Run (Session.start (role plan) s) [.advance 60, .shutdown] x ∧
      Stimulus.restart ∉ [Stimulus.advance 60, .shutdown] ∧
      x.run.phase = .ended (.finished (.interrupted 2)) ∧
      (x.deedsSince s).output = plan.announcements 2 ∧
      (x.deedsSince s).calls = plan.submissions 2 := by
  intro plan s y x
  have hbefore : (role plan).Run (Session.start (role plan) s) [.advance 60, .shutdown] y :=
    (Role.Run.start.resume.react _).change _
  have hrestart : Stimulus.restart ∉ [Stimulus.advance 60, .shutdown] := by decide
  have hend : x.run.phase = .ended (.finished (.interrupted 2)) := by decide
  have hphase : y.run.phase = .pausing 120 := by decide
  have hlooks : y.run.Looks plan := by
    simp [Looks, hphase]
  obtain ⟨-, hlaw⟩ := interruption_law_iff hbefore.resume hrestart hend
  obtain ⟨-, hiff, -⟩ := hlaw [.advance 60, .shutdown] [] y rfl hbefore Role.Run.start.resume
    (by decide) hlooks
  exact ⟨hbefore.resume, hrestart, hend, hiff.mpr (.inr ⟨120, hphase⟩)⟩

/-- The signal goes up with an octet of the first line.  The line is in print, no call
    follows it, and the run counts nothing: its writer never fails, and yet there is a
    line of a message that was never submitted. -/
theorem interruption_law_fails :
    let plan : Plan := { topic := "t", count := 3, interval := 0, qos := .exactlyOnce }
    let s : Surroundings :=
      { link := .immediate fun _ => .accepted, signal := { onOctets := some 1 } }
    let x := (Session.start (role plan) s).resume (role plan)
    s.writer.limit = none ∧ x.run.phase = .ended (.finished (.interrupted 0)) ∧
      (x.deedsSince s).output = plan.announcements 1 ∧
      (x.deedsSince s).output ≠ plan.announcements 0 ∧ (x.deedsSince s).calls = [] := by
  decide

/-! ### A signal that goes up before the end -/

theorem step_ne_none_of_between {p : Publisher} {s : Surroundings} (hphase : p.phase = .between) :
    p.step plan s ≠ none := by
  simp only [step, hphase]
  split
  · split <;> simp
  · simp

/-- Between two resumptions, a run of a plan with messages that has done all it began
    has one left. -/
theorem number_lt_of_played (hcount : 0 < plan.count)
    (h : (role plan).Played (Session.start (role plan) s) x) (hphase : x.run.phase = .between) :
    x.run.number < plan.count := by
  induction h with
  | start => exact hcount
  | @change y stimulus hne _ ih =>
    have hrun : (y.change (role plan) stimulus).run = y.run := (y.changed_change hne).run_eq
    rw [hrun] at hphase ⊢
    exact ih hphase
  | @resume y _ _ =>
    -- a run that rests is not between two messages
    have hrest := (role plan).activity.step_settle y.surroundings y.run
    exact absurd hrest (step_ne_none_of_between hphase)

/-- A run that has not ended when the signal is up is about to look at it: only the run
    itself raises the signal in the middle of a resumption, and never between the end
    of a pause and the end of the plan. -/
theorem looks_of_raised (hcount : 0 < plan.count)
    (hx : (role plan).Played (Session.start (role plan) s) x) (hy : (role plan).Run x [] y)
    (hup : y.surroundings.signal.raised = true)
    (hgoing : ∀ result, y.run.phase ≠ .ended result) : y.run.Looks plan := by
  -- inside a resumption a run gets between two messages only by a step that found the signal
  -- down and left it so
  have hbetween : y.run.phase = .between →
      y.run.number < plan.count ∨ y.surroundings.signal.raised = false := by
    generalize hevents : ([] : List Stimulus) = events at hy
    induction hy with
    | start => exact fun hphase => .inl (number_lt_of_played hcount hx hphase)
    | change => simp at hevents
    | step _ hstep _ =>
      intro hphase
      cases move_of_step hstep with
      | proceed _ _ hdown _ ht => exact .inr (ht ▸ hdown)
      | _ => cases hphase
  unfold Looks
  cases hphase : y.run.phase with
  | between =>
    rcases hbetween hphase with hlt | hdown
    · exact hlt
    · exact absurd (hdown.symm.trans hup) (by simp)
  | ended result => exact hgoing result hphase
  | _ => trivial

/-- A signal that is up in no state so far has interrupted nothing. -/
theorem raised_of_interrupted (h : (role plan).Run (Session.start (role plan) s) events y)
    (hrestart : Stimulus.restart ∉ events) {n : UInt32}
    (hend : y.run.phase = .ended (.finished (.interrupted n))) :
    y.surroundings.signal.raised = true := by
  refine h.invariant hrestart (P := fun y => y.run.phase = .ended (.finished (.interrupted n)) →
    y.surroundings.signal.raised = true) (fun hphase => by cases hphase) ?_ ?_ hend
  · intro z w stimulus _ ih hchanged hphase
    exact hchanged.raised (ih (hchanged.run_eq ▸ hphase))
  · intro z t q _ hstep hphase
    -- the step that ends a run as interrupted has seen the signal up
    cases move_of_step hstep with
    | interrupt _ hraised hacts => exact hacts.raised hraised
    | _ => cases hphase

/-- The writer has cut the line in hand in the step from `y` to `z`.  Nothing else was
    done, nothing is reported, and the run stays as it is. -/
structure CutShort (plan : Plan) (s : Surroundings) (y z : Session Publisher) : Prop where
  failed : z.run.phase = .ended (.failed .full)
  limited : y.surroundings.writer.limit ≠ none
  output : ∃ cut, cut <+: plan.announcement z.run.number.toNat ∧
    cut.length < (plan.announcement z.run.number.toNat).length ∧
      (z.deedsSince s).output = (y.deedsSince s).output ++ cut
  calls : (z.deedsSince s).calls = (y.deedsSince s).calls
  silent : (z.deedsSince s).interruptions = []
  stays : ∀ {events w}, Stimulus.restart ∉ events → (role plan).Run z events w →
    w.run = z.run ∧ w.surroundings.effects = z.surroundings.effects

/-- Where a step cuts the line in hand, the run ends there. -/
theorem cutShort_of_cut (h : (role plan).Run (Session.start (role plan) s) events y)
    (hrestart : Stimulus.restart ∉ events) (hphase : y.run.phase = .between)
    (hlt : y.run.number < plan.count) (hlimit : y.surroundings.writer.limit ≠ none)
    {octets : Octets} (hinitial : octets <+: plan.announcement (y.run.number.toNat + 1))
    (hlength : octets.length < (plan.announcement (y.run.number.toNat + 1)).length)
    {t : Surroundings} (hacts : y.surroundings.Acts (Effect.writing octets) t) :
    CutShort plan s y
      { surroundings := t
        run := { y.run with number := y.run.number + 1, phase := .ended (.failed .full) } } := by
  obtain ⟨effects, answers, standing, heffects, -⟩ := account_run h hrestart
  have hgoing : ∀ result, y.run.phase ≠ .ended result := by
    intro result hended
    rw [hphase] at hended
    cases hended
  obtain ⟨-, -, hnone⟩ := counts_of_going h hrestart hgoing
  have hmore : ∀ q : Publisher, (Session.deedsSince s ⟨t, q⟩).effects =
      (y.deedsSince s).effects ++ Effect.writing octets := fun _ =>
    Session.effects_deedsSince_append heffects hacts.effects_eq
  have hnumber := toNat_number_succ hlt
  refine ⟨rfl, hlimit, ⟨octets, ?_, ?_, ?_⟩, ?_, ?_, fun hstays hrun => run_of_ended rfl hrun hstays⟩
  · rw [hnumber]
    exact hinitial
  · rw [hnumber]
    exact hlength
  · rw [Trace.output_of_append (hmore _), Effect.flatMap_written_writing]
  · rw [Trace.calls_of_append (hmore _), Effect.filterMap_call?_writing, List.append_nil]
  · rw [Trace.interruptions] at hnone ⊢
    rw [hmore, List.filterMap_append, hnone, Effect.filterMap_interruption?_writing,
      List.append_nil]

/-- A step that raises the signal finished the line in hand, made a call that waits, or
    counted a message; or it cut the line. -/
theorem raised_of_step (h : (role plan).Run (Session.start (role plan) s) events y)
    (hrestart : Stimulus.restart ∉ events)
    (hstep : (role plan).activity.step y.surroundings y.run = some (z.surroundings, z.run))
    (hdown : y.surroundings.signal.raised = false) (hup : z.surroundings.signal.raised = true) :
    (z.run.phase = .written ∧ (z.deedsSince s).output =
        (y.deedsSince s).output ++ plan.announcement z.run.number.toNat) ∨
      (z.run.phase = .calling ∧ z.run.submitted = y.run.submitted ∧
        y.surroundings.link.atOnce (y.surroundings.link.made + 1) = none) ∨
      ((∃ deadline, z.run.phase = .pausing deadline) ∧
        z.run.submitted = y.run.submitted + 1) ∨
      CutShort plan s y z := by
  obtain ⟨effects, answers, standing, heffects, -⟩ := account_run h hrestart
  obtain ⟨t, q⟩ := z
  dsimp only at hstep hup ⊢
  -- steps that leave the surroundings as they are do not raise it, nor does one that saw it up
  cases move_of_step hstep with
  | interrupt _ hraised _ => exact absurd (hdown.symm.trans hraised) (by simp)
  | announce _ hlt _ hacts =>
    have hmore : (Session.deedsSince s ⟨t, { y.run with
        number := y.run.number + 1, phase := .written }⟩).effects =
          (y.deedsSince s).effects ++ [.wrote (plan.announcement (y.run.number.toNat + 1))] :=
      Session.effects_deedsSince_append heffects hacts.effects_eq
    refine .inl ⟨rfl, ?_⟩
    rw [Trace.output_of_append hmore, toNat_number_succ hlt]
    simp [Effect.written]
  | cut octets hphase hlt _ hlimit hinitial hlength hacts =>
    exact .inr (.inr (.inr
      (cutShort_of_cut h hrestart hphase hlt hlimit hinitial hlength hacts)))
  | complete _ _ ht => exact absurd (hdown.symm.trans (ht ▸ hup)) (by simp)
  | await _ _ hwaits _ => exact .inr (.inl ⟨rfl, rfl, hwaits⟩)
  | submit _ _ _ _ _ => exact .inr (.inr (.inl ⟨⟨_, rfl⟩, rfl⟩))
  | conclude _ _ _ _ _ => exact .inr (.inr (.inl ⟨⟨_, rfl⟩, rfl⟩))
  | proceed _ _ _ _ ht => exact absurd (hdown.symm.trans (ht ▸ hup)) (by simp)

/-- Cancellation wins.  Let `y` be any state of a run whose surroundings change between
    resumptions only.

    If the signal is up in `y` and the run has not ended, it is cancelled, whatever
    came together with the signal: all its lines are whole, every call but a waiting
    one is counted, and that is the count it ends with.

    If a step raises the signal, it finished the line in hand, made a call that has no
    answer at once, or took the answer to a call and counted it; or else the writer
    cut the line.

    If the signal is down, the run was not interrupted and reports no interruption. -/
theorem cancellation_wins (hcount : 0 < plan.count)
    (hx : (role plan).Played (Session.start (role plan) s) x) (hy : (role plan).Run x [] y) :
    (y.surroundings.signal.raised = true → (∀ result, y.run.phase ≠ .ended result) →
        Cancelled plan s y ∧
          (y.deedsSince s).output =
            plan.announcements (y.run.submitted.toNat + y.run.phase.linesAhead) ∧
          (y.deedsSince s).calls =
            plan.submissions (y.run.submitted.toNat + y.run.phase.callsAhead)) ∧
      (∀ z : Session Publisher,
        (role plan).activity.step y.surroundings y.run = some (z.surroundings, z.run) →
        y.surroundings.signal.raised = false → z.surroundings.signal.raised = true →
          (z.run.phase = .written ∧ (z.deedsSince s).output =
            (y.deedsSince s).output ++ plan.announcement z.run.number.toNat) ∨
          (z.run.phase = .calling ∧ z.run.submitted = y.run.submitted ∧
            y.surroundings.link.atOnce (y.surroundings.link.made + 1) = none) ∨
          ((∃ deadline, z.run.phase = .pausing deadline) ∧
            z.run.submitted = y.run.submitted + 1) ∨
          CutShort plan s y z) ∧
      (y.surroundings.signal.raised = false →
        (∀ n, y.run.phase ≠ .ended (.finished (.interrupted n))) ∧
          (y.deedsSince s).interruptions = []) := by
  obtain ⟨events, hrestart, hrun⟩ := hx.run
  have hy' := hrun.trans hy
  rw [List.append_nil] at hy'
  obtain ⟨effects, answers, standing, heffects, haccount⟩ := account_run hy' hrestart
  have hsince := Session.effects_deedsSince heffects
  refine ⟨?_, ?_, ?_⟩
  · intro hup hgoing
    obtain ⟨houtput, hcalls, -⟩ := counts_of_going hy' hrestart hgoing
    exact ⟨cancelled_of_raised hy' hrestart hup (looks_of_raised hcount hx hy hup hgoing),
      houtput, hcalls⟩
  · intro z hstep hdown hup
    exact raised_of_step hy' hrestart hstep hdown hup
  · intro hdown
    have hnot : ∀ n, y.run.phase ≠ .ended (.finished (.interrupted n)) := by
      intro n hphase
      exact absurd (hdown.symm.trans (raised_of_interrupted hy' hrestart hphase)) (by simp)
    refine ⟨hnot, ?_⟩
    rw [Trace.interruptions, hsince, haccount.interruptions]
    unfold epilogue
    split
    · exact absurd ‹_› (hnot _)
    · rfl

/-- The signal comes together with the end of the last pause. -/
theorem cancellation_wins_over_last_pause :
    let plan : Plan := { topic := "t", count := 1, interval := 5, qos := .exactlyOnce }
    let s : Surroundings := { link := .immediate fun _ => .accepted }
    let x := (((Session.start (role plan) s).resume (role plan)).change (role plan)
      (.advance 5)).change (role plan) .shutdown
    0 < plan.count ∧ (role plan).Played (Session.start (role plan) s) x ∧
      (role plan).Run x [] x ∧ x.surroundings.now = 5 ∧ x.run.phase = .pausing 5 ∧
      (x.resume (role plan)).run.phase = .ended (.finished (.interrupted 1)) ∧
      ((x.resume (role plan)).deedsSince s).interruptions = [1] := by
  intro plan s x
  have hcount : 0 < plan.count := by decide
  have hplayed : (role plan).Played (Session.start (role plan) s) x :=
    .change (by decide) (.change (by decide) (.resume .start))
  have hphase : x.run.phase = .pausing 5 := by decide
  have hgoing : ∀ result, x.run.phase ≠ .ended result := by
    intro result
    rw [hphase]
    exact nofun
  obtain ⟨hcancelled, -⟩ := (cancellation_wins hcount hplayed .start).1 (by decide) hgoing
  have hends := hcancelled.ends List.not_mem_nil Role.Run.start
  have hsubmitted : x.run.submitted = 1 := by decide
  rw [hsubmitted] at hends
  exact ⟨hcount, hplayed, .start, by decide, hphase, hends⟩

end Publisher

end BrokerLoad
