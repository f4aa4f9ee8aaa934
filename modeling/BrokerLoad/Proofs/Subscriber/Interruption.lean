/-
  BrokerLoad/Proofs/Subscriber/Interruption.lean
  ==============================================
  What the shutdown signal does to a subscriber run.

  The run looks at the signal only when it is ready for the next notice.  So once the
  signal is up, no notice is taken (`untaken_run`), and a run that is going then has
  one way to end (`verdict`, `ended_eq_verdict`).  A waiting call is no exception: it
  waits for its answer as long as that takes (`patient_run`), and the answer is all
  that the end needs (`ended_of_raised`).

  `notice_finished_before_interruption` puts this together, with what holds of a run
  while the signal is down.
-/
import BrokerLoad.Proofs.Subscriber.Transcript

namespace BrokerLoad

/-! ### Entries of level INFO -/

def Effect.info? (effect : Effect) : Option Diagnostic :=
  effect.diagnostic?.filter (·.severity == .info)

def Trace.infos (trace : Trace) : List Diagnostic :=
  trace.diagnostics.filter (·.severity == .info)

theorem Trace.infos_eq_filterMap (trace : Trace) :
    trace.infos = trace.effects.filterMap Effect.info? := by
  rw [infos, diagnostics, effects, List.filter_filterMap, List.filterMap_map]
  rfl

@[simp] theorem Effect.filterMap_info?_writing (octets : Octets) :
    (Effect.writing octets).filterMap Effect.info? = [] := by
  cases octets <;> rfl

namespace Subscriber

variable {topic : String} {s t : Surroundings} {p q : Subscriber}
  {x y z : Session Subscriber} {events : List Stimulus}

@[simp] theorem filterMap_info?_opening (topic : String) (notice : Notice) :
    (opening topic notice).filterMap Effect.info? = [] := by
  rw [opening, List.filterMap_cons_none rfl, Effect.filterMap_info?_writing]

@[simp] theorem filterMap_info?_complaint (answer : Answer) :
    (answer.complaint .subscribeRejected).filterMap Effect.info? = [] := by
  cases answer <;> rfl

/-- The entries of level INFO that a run has made when it is here. -/
def farewell : Subscriber → List Diagnostic
  | .ended (.finished .interrupted) => [.subscriberInterrupted]
  | _ => []

theorem infos_run (h : (role topic).Run (Session.start (role topic) s) events x)
    (hrestart : Stimulus.restart ∉ events) : (x.deedsSince s).infos = x.run.farewell := by
  have hkept : ∃ effects, x.surroundings.effects = s.effects ++ effects ∧
      effects.filterMap Effect.info? = x.run.farewell := by
    refine h.account hrestart
      (A := fun p effects => effects.filterMap Effect.info? = p.farewell) rfl ?_
    intro t u p q effects hbefore hstep
    -- only the interruption makes an entry of this level, and nothing follows it
    cases move_of_step hstep with
    | interrupt _ hacts => exact ⟨_, hacts, by rw [List.filterMap_append, hbefore]; rfl⟩
    | exhaust _ _ _ => exact ⟨[], .refl _, by rw [List.append_nil, hbefore]; rfl⟩
    | handle notice _ _ hacts =>
      exact ⟨_, hacts, by rw [List.filterMap_append, hbefore, filterMap_info?_opening]; rfl⟩
    | cut notice octets _ _ _ _ hacts =>
      refine ⟨_, hacts, ?_⟩
      rw [List.filterMap_append, hbefore, List.filterMap_cons_none rfl,
        Effect.filterMap_info?_writing]
      rfl
    | await notice call _ _ _ hacts =>
      refine ⟨_, hacts, ?_⟩
      rw [List.filterMap_append, List.filterMap_append, hbefore, filterMap_info?_opening]
      rfl
    | subscribe notice call answer _ _ _ hacts =>
      refine ⟨_, hacts, ?_⟩
      rw [List.filterMap_append, List.filterMap_append, hbefore, filterMap_info?_opening,
        List.filterMap_cons_none rfl, filterMap_info?_complaint]
      rfl
    | conclude answer _ hacts =>
      exact ⟨_, hacts, by rw [List.filterMap_append, hbefore, filterMap_info?_complaint]; rfl⟩
    | flush hacts => exact ⟨_, hacts, by rw [List.filterMap_append, hbefore]; rfl⟩
    | lose _ hacts => exact ⟨_, hacts, by rw [List.filterMap_append, hbefore]; rfl⟩
  obtain ⟨effects, heffects, hinfos⟩ := hkept
  rw [Trace.infos_eq_filterMap, Session.effects_deedsSince heffects, hinfos]

/-! ### A signal that is up -/

/-- How a run ends that is going when the signal is up: interrupted, unless it owes a
    flush and that fails. -/
def verdict (w : Writer) (p : Subscriber) : Ending Exit :=
  if p.owed ≠ [] ∧ w.failingFlush = some (w.flushes + 1) then .failed .flushFailed
  else .finished .interrupted

theorem verdict_of_owed_nil {w : Writer} (h : p.owed = []) :
    verdict w p = .finished .interrupted :=
  if_neg fun hfails => hfails.1 h

theorem verdict_cases (w : Writer) (p : Subscriber) :
    verdict w p = .failed .flushFailed ∨ verdict w p = .finished .interrupted := by
  unfold verdict
  split
  · exact .inl rfl
  · exact .inr rfl

/-- With the signal up, a step takes no notice and begins no wait, and how the run will
    end stays settled. -/
theorem step_of_raised (hup : s.signal.raised = true) (h : step topic s p = some (t, q)) :
    q ≠ .subscribing ∧
      (q = .ended (verdict s.writer p) ∨
        (∀ result, q ≠ .ended result) ∧ verdict t.writer q = verdict s.writer p) ∧
      ∃ effects, s.Acts effects t ∧ effects.filterMap Effect.notice? = [] := by
  cases p with
  | listening =>
    simp only [step, hup, if_true, Option.some.injEq] at h
    cases h
    exact ⟨by simp, .inl rfl, _, s.acts_report _, rfl⟩
  | subscribing =>
    -- the call in hand is still answered; the flush it owes then is the same one
    obtain ⟨answer, -, hconclude⟩ := Option.map_eq_some_iff.mp h
    have hacts := acts_conclude s answer
    have hsnd := conclude_snd s answer
    have hwriter : (conclude s answer).1.writer = s.writer := by
      cases answer <;> rfl
    rw [hconclude] at hacts hsnd hwriter
    subst hsnd
    refine ⟨by simp, .inr ⟨by simp, ?_⟩, _, hacts, ?_⟩
    · rw [hwriter]
      rfl
    · cases answer <;> rfl
  | flushing =>
    have hstep : some (afterFlush s.flush) = some (t, q) := h
    have hacts := s.acts_flush
    -- the flush is the one place where the verdict is decided
    by_cases hfails : s.writer.failingFlush = some (s.writer.flushes + 1)
    · have hflush : s.flush = (s.flush.1, some .flushFailed) := Prod.ext rfl (if_pos hfails)
      rw [hflush] at hstep
      cases hstep
      refine ⟨by simp, .inl ?_, _, hacts, rfl⟩
      rw [verdict, if_pos ⟨by simp [owed], hfails⟩]
    · have hflush : s.flush = (s.flush.1, none) := Prod.ext rfl (if_neg hfails)
      rw [hflush] at hstep
      cases hstep
      refine ⟨by simp, .inr ⟨by simp, ?_⟩, _, hacts, rfl⟩
      rw [verdict_of_owed_nil rfl, verdict, if_neg fun hboth => hfails hboth.2]
  | ended result => cases h

/-- Once the signal is up, it stays up, and no notice is taken any more. -/
theorem untaken_run (hup : y.surroundings.signal.raised = true) (h : (role topic).Run y events z)
    (hrestart : Stimulus.restart ∉ events) :
    z.surroundings.signal.raised = true ∧ ∃ effects,
      z.surroundings.effects = y.surroundings.effects ++ effects ∧
        effects.filterMap Effect.notice? = [] := by
  refine h.invariant hrestart (P := fun z => z.surroundings.signal.raised = true ∧ ∃ effects,
      z.surroundings.effects = y.surroundings.effects ++ effects ∧
        effects.filterMap Effect.notice? = []) ⟨hup, [], by simp, rfl⟩ ?_ ?_
  · rintro v w stimulus - ⟨hraised, hkept⟩ hchanged
    rw [hchanged.effects_eq]
    exact ⟨hchanged.raised hraised, hkept⟩
  · rintro v t q ⟨hraised, effects, heffects, hnone⟩ hstep
    obtain ⟨-, -, more, hacts, hmore⟩ := step_of_raised hraised hstep
    refine ⟨hacts.raised hraised, effects ++ more, ?_, ?_⟩
    · rw [hacts.effects_eq, heffects, List.append_assoc]
    · rw [List.filterMap_append, hnone, hmore, List.append_nil]

theorem taken_of_raised {effects : List Effect} (hup : y.surroundings.signal.raised = true)
    (h : (role topic).Run y events z) (hrestart : Stimulus.restart ∉ events)
    (hy : y.surroundings.effects = s.effects ++ effects) :
    (z.deedsSince s).taken = (y.deedsSince s).taken := by
  obtain ⟨-, more, hmore, hnone⟩ := untaken_run hup h hrestart
  rw [Trace.taken_eq_filterMap, Trace.taken_eq_filterMap,
    Session.effects_deedsSince_append hy hmore, List.filterMap_append, hnone, List.append_nil]

/-- How a run that is going when the signal is up ends, if it has ended, or else still
    will end. -/
theorem windup_run (hup : y.surroundings.signal.raised = true)
    (hgoing : ∀ result, y.run ≠ .ended result) (h : (role topic).Run y events z)
    (hrestart : Stimulus.restart ∉ events) :
    z.run = .ended (verdict y.surroundings.writer y.run) ∨
      (∀ result, z.run ≠ .ended result) ∧
        verdict z.surroundings.writer z.run = verdict y.surroundings.writer y.run := by
  have hkept := h.invariant hrestart (P := fun z => z.surroundings.signal.raised = true ∧
      (z.run = .ended (verdict y.surroundings.writer y.run) ∨
        (∀ result, z.run ≠ .ended result) ∧
          verdict z.surroundings.writer z.run = verdict y.surroundings.writer y.run))
    ⟨hup, .inr ⟨hgoing, rfl⟩⟩ ?_ ?_
  · exact hkept.2
  · rintro v w stimulus - ⟨hraised, hresult⟩ hchanged
    rw [hchanged.run_eq, hchanged.writer_eq]
    exact ⟨hchanged.raised hraised, hresult⟩
  · -- while the run is going, each step hands the verdict on
    rintro v t q ⟨hraised, hended | ⟨-, hsame⟩⟩ hstep
    · -- a run that has ended takes no step
      have hnone : step topic v.surroundings v.run = none := by
        rw [hended]
        rfl
      exact absurd (hnone.symm.trans hstep) (by simp)
    · obtain ⟨-, hresult, _, hacts, -⟩ := step_of_raised hraised hstep
      rw [hsame] at hresult
      exact ⟨hacts.raised hraised, hresult⟩

theorem ended_eq_verdict (hup : y.surroundings.signal.raised = true)
    (hgoing : ∀ result, y.run ≠ .ended result) (h : (role topic).Run y events z)
    (hrestart : Stimulus.restart ∉ events) {result : Ending Exit} (hend : z.run = .ended result) :
    result = verdict y.surroundings.writer y.run := by
  rcases windup_run hup hgoing h hrestart with hended | ⟨hgoing', -⟩
  · exact Subscriber.ended.inj (hend.symm.trans hended)
  · exact absurd hend (hgoing' result)

/-- A waiting call is not cut short: without an answer the run stays where it is. -/
theorem patient_run (h : (role topic).Run y events z) (hrestart : Stimulus.restart ∉ events)
    (hresolve : ∀ answer, Stimulus.resolve answer ∉ events) (hwaits : y.run = .subscribing)
    (hanswer : y.surroundings.link.answer = none) :
    z.run = .subscribing ∧ z.surroundings.link.answer = none := by
  induction h with
  | start => exact ⟨hwaits, hanswer⟩
  | @change events v stimulus _ ih =>
    simp only [List.mem_append, List.mem_singleton, not_or] at hrestart hresolve
    obtain ⟨hrun, hlink⟩ := ih hrestart.1 fun answer => (hresolve answer).1
    cases stimulus with
    | resolve answer => exact absurd rfl (hresolve answer).2
    | restart => exact absurd rfl hrestart.2
    | event event =>
      simp only [Session.change]
      split <;> exact ⟨hrun, hlink⟩
    | _ => exact ⟨hrun, hlink⟩
  | @step _ v _ _ _ hstep ih =>
    obtain ⟨hrun, hlink⟩ := ih hrestart hresolve
    have hnone : step topic v.surroundings v.run = none := by
      rw [hrun]
      simp [step, hlink]
    exact absurd (hnone.symm.trans hstep) (by simp)

/-- With the signal up, a run that is resumed ends, unless its call has no answer. -/
theorem ended_of_raised (topic : String) (hup : z.surroundings.signal.raised = true)
    (hready : z.run = .subscribing → z.surroundings.link.answer ≠ none) :
    ∃ result, (z.resume (role topic)).run = .ended result := by
  have hkept := (role topic).activity.settle_induction
    (motive := fun t p => t.signal.raised = true ∧ (p = .subscribing → t.link.answer ≠ none))
    (fun t p u q hbefore hstep => by
      obtain ⟨hwaits, -, _, hacts, -⟩ := step_of_raised hbefore.1 hstep
      exact ⟨hacts.raised hbefore.1, fun hq => absurd hq hwaits⟩)
    ⟨hup, hready⟩
  obtain ⟨hraised, hanswered⟩ := hkept
  -- a run rests listening only while the signal is down
  rcases rest_cases ((role topic).activity.step_settle z.surroundings z.run) with
    ⟨-, hdown, -⟩ | ⟨hwaits, hanswer⟩ | hend
  · exact absurd (hdown.symm.trans hraised) (by simp)
  · exact absurd hanswer (hanswered hwaits)
  · exact hend

/-! ### The notice in hand -/

/-- What the signal has settled in a state.  Whatever arrives from here on, the notices
    taken stay the same, and the one in hand is handled like all others.  A waiting
    call is waited for.  The next resumption with nothing to wait for ends the run, by
    its verdict, and with one entry of level INFO if it was interrupted. -/
structure Finishing (topic : String) (s : Surroundings) (y : Session Subscriber) : Prop where
  transcript : ∀ {events z}, Stimulus.restart ∉ events → (role topic).Run y events z →
    Transcript topic s z (y.deedsSince s).taken
  never_linkClosed : ∀ {events z}, Stimulus.restart ∉ events → (role topic).Run y events z →
    z.run ≠ .ended (.finished .linkClosed)
  patient : y.run = .subscribing → y.surroundings.link.answer = none → ∀ {events z},
    Stimulus.restart ∉ events → (∀ answer, Stimulus.resolve answer ∉ events) →
      (role topic).Run y events z → z.run = .subscribing
  ends : ∀ {events z}, Stimulus.restart ∉ events → (role topic).Run y events z →
    (z.run = .subscribing → z.surroundings.link.answer ≠ none) →
      (z.resume (role topic)).run = .ended (verdict y.surroundings.writer y.run) ∧
        ((z.resume (role topic)).deedsSince s).infos =
          farewell (.ended (verdict y.surroundings.writer y.run))

theorem finishing_of_raised (h : (role topic).Run (Session.start (role topic) s) events y)
    (hrestart : Stimulus.restart ∉ events) (hup : y.surroundings.signal.raised = true)
    (hgoing : ∀ result, y.run ≠ .ended result) : Finishing topic s y := by
  obtain ⟨effects, -, heffects, -⟩ := account_run h hrestart
  have hall : ∀ {more}, Stimulus.restart ∉ more → Stimulus.restart ∉ events ++ more := by
    intro more hmore hmem
    exact (List.mem_append.mp hmem).elim hrestart hmore
  -- the verdict leaves two ends, neither of them with a closed link or a full writer
  have hends : ∀ {more z}, Stimulus.restart ∉ more → (role topic).Run y more z →
      ∀ {result}, z.run = .ended result →
        result = .failed .flushFailed ∨ result = .finished .interrupted := by
    intro more z hmore hrun result hend
    rw [ended_eq_verdict hup hgoing hrun hmore hend]
    exact verdict_cases _ _
  refine ⟨?_, ?_, ?_, ?_⟩
  · intro more z hmore hrun
    have hwhole : z.run ≠ .ended (.failed .full) := by
      intro hfull
      simpa using hends hmore hrun hfull
    have htranscript := transcript_of_whole (h.trans hrun) (hall hmore) hwhole
    rw [taken_of_raised hup hrun hmore heffects] at htranscript
    exact htranscript
  · intro more z hmore hrun hclosed
    simpa using hends hmore hrun hclosed
  · intro hwaits hanswer more z hmore hresolve hrun
    exact (patient_run hrun hmore hresolve hwaits hanswer).1
  · intro more z hmore hrun hready
    obtain ⟨hraised, -⟩ := untaken_run hup hrun hmore
    obtain ⟨result, hend⟩ := ended_of_raised topic hraised hready
    have hresult := ended_eq_verdict hup hgoing hrun.resume hmore hend
    rw [← hresult, infos_run (h.trans hrun.resume) (hall hmore), hend]
    exact ⟨rfl, rfl⟩

/-- The writer has cut the lines of a notice in the step from `y` to `z`.  No call was
    made for the notice, nothing is reported, and the run stays as it is. -/
structure CutShort (topic : String) (s : Surroundings) (y z : Session Subscriber) : Prop where
  failed : z.run = .ended (.failed .full)
  limited : y.surroundings.writer.limit ≠ none
  output : ∃ notice cut, cut <+: text topic notice ∧ cut.length < (text topic notice).length ∧
    (z.deedsSince s).taken = (y.deedsSince s).taken ++ [notice] ∧
      (z.deedsSince s).output = (y.deedsSince s).output ++ cut
  calls : (z.deedsSince s).calls = (y.deedsSince s).calls
  silent : (z.deedsSince s).infos = []
  stays : ∀ {events w}, Stimulus.restart ∉ events → (role topic).Run z events w →
    w.run = z.run ∧ w.surroundings.effects = z.surroundings.effects

theorem signal_of_flushing (h : step topic s .flushing = some (t, q)) : t.signal = s.signal := by
  have hstep : some (afterFlush s.flush) = some (t, q) := h
  have hkept : (afterFlush s.flush).1 = s.flush.1 := by
    rcases s.flush with ⟨u, _ | error⟩ <;> rfl
  rw [Option.some.inj hstep] at hkept
  calc t.signal = s.flush.1.signal := congrArg Surroundings.signal hkept
    _ = s.signal := rfl

/-- If a step raises the signal and ends the run, the writer has cut the lines that it
    was writing. -/
theorem cutShort_of_step (h : (role topic).Run (Session.start (role topic) s) events y)
    (hrestart : Stimulus.restart ∉ events)
    (hstep : step topic y.surroundings y.run = some (z.surroundings, z.run))
    (hdown : y.surroundings.signal.raised = false) (hup : z.surroundings.signal.raised = true)
    {result : Ending Exit} (hend : z.run = .ended result) : CutShort topic s y z := by
  obtain ⟨effects, -, heffects, -⟩ := account_run h hrestart
  obtain ⟨v, p⟩ := y
  obtain ⟨t, q⟩ := z
  dsimp only at hstep hdown hup hend heffects
  have hinfos := infos_run (h.step hstep) hrestart
  have hmore : ∀ more, v.Acts more t → (Session.deedsSince s ⟨t, q⟩).effects =
      (Session.deedsSince s ⟨v, p⟩).effects ++ more :=
    fun more hacts => Session.effects_deedsSince_append heffects hacts.effects_eq
  -- the other steps that end a run do so without touching the signal
  cases move_of_step hstep with
  | interrupt hraised _ => exact absurd (hdown.symm.trans hraised) (by simp)
  | exhaust _ _ _ => exact absurd (hdown.symm.trans hup) (by simp)
  | cut notice octets _ hlimit hinitial hlength hacts =>
    have hsince := hmore _ hacts
    refine ⟨rfl, hlimit, ⟨notice, octets, hinitial, hlength, ?_, ?_⟩, ?_, hinfos, ?_⟩
    · rw [Trace.taken_eq_filterMap, Trace.taken_eq_filterMap, hsince, List.filterMap_append]
      simp [Effect.notice?]
    · rw [Trace.output_of_append hsince]
      simp [Effect.written]
    · rw [Trace.calls_of_append hsince, List.filterMap_cons_none rfl,
        Effect.filterMap_call?_writing, List.append_nil]
    · exact fun hmore hrun => hrun.rests (fun _ => rfl) hmore
  | lose _ _ =>
    have hsignal := signal_of_flushing hstep
    rw [hsignal] at hup
    exact absurd (hdown.symm.trans hup) (by simp)
  | _ => cases hend

/-! ### A signal that is down -/

theorem raised_of_interrupted (h : (role topic).Run (Session.start (role topic) s) events y)
    (hrestart : Stimulus.restart ∉ events) (hend : y.run = .ended (.finished .interrupted)) :
    y.surroundings.signal.raised = true := by
  refine h.invariant hrestart (P := fun y => y.run = .ended (.finished .interrupted) →
    y.surroundings.signal.raised = true) nofun ?_ ?_ hend
  · intro z w stimulus _ ih hchanged hended
    exact hchanged.raised (ih (hchanged.run_eq ▸ hended))
  · rintro ⟨u, p⟩ t q - hstep hended
    cases move_of_step hstep with
    | interrupt hraised hacts => exact hacts.raised hraised
    | _ => cases hended

theorem transcript_of_linkClosed (h : (role topic).Run (Session.start (role topic) s) events y)
    (hrestart : Stimulus.restart ∉ events) (hend : y.run = .ended (.finished .linkClosed)) :
    Transcript topic s y (s.inbox.received events) := by
  have hreceived := h.taken_append_unread (acting topic)
  obtain ⟨hunread, -⟩ := closed_of_linkClosed h hrestart hend
  rw [hunread, List.append_nil] at hreceived
  have htranscript := transcript_of_whole h hrestart (by simp [hend])
  exact hreceived ▸ htranscript

/-- Let `y` be any state of a run.

    If the signal is up in `y` and the run has not ended, the notice in hand is
    finished, no other is begun, and the run ends interrupted unless the flush fails.

    If a step raises the signal, that is so from the state after it on; or else the
    writer cut the lines that the step was writing.

    If the signal is down, the run was not interrupted and reports no interruption.

    If the run found its link closed, its inbox is closed and every notice was handled. -/
theorem notice_finished_before_interruption
    (h : (role topic).Run (Session.start (role topic) s) events y)
    (hrestart : Stimulus.restart ∉ events) :
    (y.surroundings.signal.raised = true → (∀ result, y.run ≠ .ended result) →
        Finishing topic s y) ∧
      (∀ z : Session Subscriber,
        (role topic).activity.step y.surroundings y.run = some (z.surroundings, z.run) →
        y.surroundings.signal.raised = false → z.surroundings.signal.raised = true →
          Finishing topic s z ∨ CutShort topic s y z) ∧
      (y.surroundings.signal.raised = false →
        y.run ≠ .ended (.finished .interrupted) ∧ (y.deedsSince s).infos = []) ∧
      (y.run = .ended (.finished .linkClosed) → y.surroundings.inbox.isOpen = false ∧
        Transcript topic s y (s.inbox.received events)) := by
  refine ⟨finishing_of_raised h hrestart, ?_, ?_, ?_⟩
  · intro z hstep hdown hup
    -- a step that raises the signal and ends the run leaves the notice cut
    cases hrun : z.run with
    | ended result => exact .inr (cutShort_of_step h hrestart hstep hdown hup hrun)
    | _ => exact .inl (finishing_of_raised (h.step hstep) hrestart hup (by simp [hrun]))
  · intro hdown
    have hnot : y.run ≠ .ended (.finished .interrupted) := by
      intro hend
      exact absurd (hdown.symm.trans (raised_of_interrupted h hrestart hend)) (by simp)
    refine ⟨hnot, ?_⟩
    rw [infos_run h hrestart]
    unfold farewell
    split
    · exact absurd ‹_› hnot
    · rfl
  · intro hend
    exact ⟨(closed_of_linkClosed h hrestart hend).2, transcript_of_linkClosed h hrestart hend⟩

/-- The subscribe call raises the signal and is answered late, while another notice is
    queued and the inbox is closed. -/
theorem notice_finished_before_interruption_late_answer :
    let s : Surroundings := { link := .deferred, signal := { onCall := some 1 } }
    let events : List Stimulus :=
      [.notice (.connected .success), .notice (.received "a" [104, 105]), .close]
    let y := (events.foldl (Session.change (role "t")) (Session.start (role "t") s)).resume
      (role "t")
    let z := y.react (role "t") (.resolve (.refused "late"))
    (role "t").Run (Session.start (role "t") s) events y ∧ Stimulus.restart ∉ events ∧
      y.surroundings.signal.raised = true ∧ y.run = .subscribing ∧
      z.run = .ended (.finished .interrupted) ∧
      (z.deedsSince s).infos = [.subscriberInterrupted] ∧
      (z.deedsSince s).taken = [.connected .success] ∧ (z.deedsSince s).flushes = 1 ∧
      z.surroundings.inbox = { unread := [.received "a" [104, 105]], isOpen := false } := by
  intro s events y z
  have hrun : (role "t").Run (Session.start (role "t") s) events y :=
    (Role.Run.start.foldl_change events).resume
  have hrestart : Stimulus.restart ∉ events := by decide
  have hup : y.surroundings.signal.raised = true := by decide
  have hwaits : y.run = .subscribing := by decide
  have hgoing : ∀ result, y.run ≠ .ended result := by
    intro result
    rw [hwaits]
    exact nofun
  obtain ⟨hfinishing, -⟩ := notice_finished_before_interruption hrun hrestart
  have hfinishing := hfinishing hup hgoing
  have hanswered : (role "t").Run y [.resolve (.refused "late")]
      (y.change (role "t") (.resolve (.refused "late"))) := Role.Run.start.change _
  obtain ⟨hend, hinfos⟩ := hfinishing.ends (by decide) hanswered (by decide)
  have htranscript := hfinishing.transcript (by decide) hanswered.resume
  have hverdict : verdict y.surroundings.writer y.run = .finished .interrupted := by decide
  have htaken : (y.deedsSince s).taken = [.connected .success] := by decide
  have hflushes := htranscript.flushes
  rw [hverdict] at hend hinfos
  rw [htaken, hend] at hflushes
  simp only [owed, List.length_nil, Nat.add_zero, List.length_singleton] at hflushes
  exact ⟨hrun, hrestart, hup, hwaits, hend, hinfos, htranscript.taken.trans htaken, hflushes,
    by decide⟩

end Subscriber

end BrokerLoad
