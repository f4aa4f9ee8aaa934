/-
  BrokerLoad/Proofs/Answers.lean
  ==============================
  What the answers of the link can change: the log, and nothing else.

  `Told` is what the log of a run has of the answers: one report for each refusal that the
  run heard, at the moment at which it heard it, and none for a call that was given up while
  it waited.  `Indistinct` says of two runs that they differ in these reports alone.  They
  do if they differ in nothing but which calls are accepted, and in the reasons of the
  refusals (`answers_only_logged`): with every answer read as an acceptance, they are one
  run.
-/
import BrokerLoad.Proofs.Answers.Hearing

namespace BrokerLoad

def Trace.rejections (trace : Trace) : List Diagnostic :=
  trace.diagnostics.filter (·.isRejection)

variable {σ : Type} {role : Role σ} {rejected : String → Diagnostic} {s s' : Surroundings}
  {moments moments' : List Moment}

/-! ### Side by side -/

/-- What the log of a run has of the answers that it was given. -/
structure Told (role : Role σ) (rejected : String → Diagnostic) (s : Surroundings)
    (moments : List Moment) : Prop where
  /-- One report for each refusal heard, with its reason, and no other. -/
  rejections_eq : ((role.after s moments).deedsSince s).rejections =
    ((Session.start role s).hears role moments).filterMap fun heard =>
      heard.2.refusal?.map rejected
  /-- In the order of the calls, and not twice for one. -/
  in_order : ((Session.start role s).hears role moments).Pairwise (·.1 < ·.1)
  /-- The report is the last that is done at the moment at which the answer is heard. -/
  placed : ∀ before moment after, moments = before ++ moment :: after →
    ∃ effects, (∀ effect ∈ effects, effect.isRejection = false) ∧
      (role.after s (before ++ [moment])).surroundings.effects =
        (role.after s before).surroundings.effects ++ effects ++
          ((role.after s before).heard? role moment).elim [] (·.2.complaint rejected)
  /-- A call that waits when the run ends or is abandoned is never heard of. -/
  unheard : ∀ before moment after, moments = before ++ moment :: after →
    role.waits (role.after s before).run = true →
    moment = .arrival .restart ∨ role.isOver (role.after s (before ++ [moment])).run = true →
    ∀ heard ∈ (Session.start role s).hears role moments,
      heard.1 ≠ (role.after s before).surroundings.link.made

/-- Two runs that differ in nothing but the reports of the refusals that each was given. -/
structure Indistinct (role : Role σ) (rejected : String → Diagnostic) (s s' : Surroundings)
    (moments moments' : List Moment) : Prop where
  /-- The sessions are the same, with every answer read as an acceptance and without the
      reports of rejections. -/
  accepting_eq : (role.after s' moments').accepting = (role.after s moments).accepting
  run_eq : (role.after s' moments').run = (role.after s moments).run
  inbox_eq : (role.after s' moments').surroundings.inbox = (role.after s moments).surroundings.inbox
  output_eq : ((role.after s' moments').deedsSince s').output =
    ((role.after s moments).deedsSince s).output
  flushes_eq : ((role.after s' moments').deedsSince s').flushes =
    ((role.after s moments).deedsSince s).flushes
  calls_eq : ((role.after s' moments').deedsSince s').calls =
    ((role.after s moments).deedsSince s).calls
  log_eq : ((role.after s' moments').deedsSince s').diagnostics.filter (!·.isRejection) =
    ((role.after s moments).deedsSince s).diagnostics.filter (!·.isRejection)
  /-- Answers to the same calls are heard. -/
  heard_eq : ((Session.start role s').hears role moments').map (·.1) =
    ((Session.start role s).hears role moments).map (·.1)
  told : Told role rejected s moments
  told' : Told role rejected s' moments'

theorem Role.Hears.told (h : role.Hears rejected) (s : Surroundings) (moments : List Moment) :
    Told role rejected s moments := by
  refine ⟨?_, h.pairwise_hears _ moments, ?_, ?_⟩
  · obtain ⟨effects, heffects, hlog⟩ := h.log_live (Session.start role s) moments
    have hsince : ((role.after s moments).deedsSince s).effects = effects :=
      Session.effects_deedsSince heffects
    rw [Trace.rejections, Trace.diagnostics_eq_filterMap, hsince, hlog]
  · rintro before moment after rfl
    rw [Role.after_append]
    exact (h.next (role.after s before) moment).logged
  · rintro before moment after rfl hwaits hends heard hmem
    have hmoment := h.next (role.after s before) moment
    rw [Role.after_append] at hends
    rw [Session.hears_append, List.mem_append, Session.hears, List.mem_append] at hmem
    -- before the end the call was not heard, and what is heard later has a higher number
    rcases hmem with hearlier | hnow | hlater
    · obtain ⟨-, hlt⟩ := h.mem_hears_le (Session.start role s) before heard hearlier
      exact Nat.ne_of_lt (hlt hwaits)
    · have hsome := Option.mem_toList.mp hnow
      rcases hends with rfl | hover
      · cases hsome
      · obtain ⟨-, -, hgoing⟩ := hmoment.of_heard heard hsome
        exact absurd (hgoing.symm.trans hover) Bool.false_ne_true
    · have hidle : role.waits ((role.after s before).next role moment).run = false := by
        rcases hends with rfl | hover
        · exact h.waits_start
        · exact h.waits_of_isOver _ hover
      have hlt := (h.le_of_mem_hears _ after heard hlater).2 hidle
      exact Nat.ne_of_gt (Nat.lt_of_le_of_lt hmoment.made_le hlt)

/-! ### Answers read as acceptances -/

theorem Surroundings.heard?_accepting (s t : Surroundings) :
    s.accepting.heard? t.accepting = (s.heard? t).map fun _ => .accepted := by
  have hmade : s.accepting.link.made = s.link.made ∧ t.accepting.link.made = t.link.made :=
    ⟨rfl, rfl⟩
  have hanswer : t.accepting.link.answer.isNone = t.link.answer.isNone := Option.isNone_map
  unfold heard?
  rw [hmade.1, hmade.2, hanswer]
  split
  · rfl
  · split <;> rfl

theorem Role.Deaf.hears_accepting (h : role.Deaf) (x : Session σ) (moments : List Moment) :
    x.accepting.hears role (moments.map Moment.accepting) =
      (x.hears role moments).map fun heard => (heard.1, .accepted) := by
  induction moments generalizing x with
  | nil => rfl
  | cons moment moments ih =>
    have hheard : x.accepting.heard? role moment.accepting =
        (x.heard? role moment).map fun heard => (heard.1, .accepted) := by
      cases moment with
      | arrival stimulus => cases stimulus <;> rfl
      | step =>
        have hnext : x.accepting.next role .step = (x.next role .step).accepting :=
          h.next_accepting x .step
        have hanswer := x.surroundings.heard?_accepting (x.next role .step).surroundings
        change Option.map _ (x.accepting.surroundings.heard?
          (x.accepting.next role .step).surroundings) = _
        rw [hnext, Session.heard?]
        change Option.map _ (x.surroundings.accepting.heard?
          (x.next role .step).surroundings.accepting) = _
        rw [hanswer]
        cases x.surroundings.heard? (x.next role .step).surroundings <;> rfl
    rw [List.map_cons, Session.hears, h.next_accepting, ih, hheard, Session.hears, List.map_append]
    cases x.heard? role moment <;> rfl

theorem Role.Deaf.indistinct (h : role.Deaf) (hhears : role.Hears rejected)
    (hacting : role.Acting) (hs : s'.accepting = s.accepting)
    (hmoments : moments'.map Moment.accepting = moments.map Moment.accepting) :
    Indistinct role rejected s s' moments moments' := by
  have hsame : (role.after s' moments').accepting = (role.after s moments).accepting := by
    rw [← h.after_accepting, ← h.after_accepting, hs, hmoments]
  -- what was done before the beginning is the same too, and is taken off both
  have hdeeds : ((role.after s' moments').deedsSince s').unrejected =
      ((role.after s moments).deedsSince s).unrejected := by
    have hhistory : s'.accepting.history = s.accepting.history := congrArg _ hs
    have hhistory' : (role.after s' moments').surroundings.accepting.history =
        (role.after s moments).surroundings.accepting.history :=
      congrArg (fun x => x.surroundings.history) hsame
    rw [Surroundings.history_accepting, Surroundings.history_accepting] at hhistory hhistory'
    rw [(hacting.grew_after s moments).history_eq, (hacting.grew_after s' moments').history_eq,
      Trace.unrejected_append, Trace.unrejected_append] at hhistory'
    have hstart : (Session.start role s').surroundings.history.unrejected =
      (Session.start role s).surroundings.history.unrejected := hhistory
    rw [hstart] at hhistory'
    exact List.append_cancel_left hhistory'
  -- the other effects do not depend on what was reported
  have hunreported := congrArg (fun trace => Effect.unreported (Trace.effects trace)) hdeeds
  simp only [Trace.unreported_unrejected] at hunreported
  have hrun := congrArg Session.run hsame
  have hinbox := congrArg (fun x => x.surroundings.inbox) hsame
  refine ⟨hsame, hrun, hinbox, ?_, ?_, ?_, ?_, ?_,
    hhears.told s moments, hhears.told s' moments'⟩
  · rw [Trace.output_eq_flatMap, ← Effect.flatMap_written_unreported, hunreported,
      Effect.flatMap_written_unreported, Trace.output_eq_flatMap]
  · rw [Trace.flushes_eq_count, ← Effect.count_flushed_unreported, hunreported,
      Effect.count_flushed_unreported, Trace.flushes_eq_count]
  · rw [Trace.calls_eq_filterMap, ← Effect.filterMap_call?_unreported, hunreported,
      Effect.filterMap_call?_unreported, Trace.calls_eq_filterMap]
  · rw [← Trace.diagnostics_unrejected, hdeeds, Trace.diagnostics_unrejected]
  · have hheard := h.hears_accepting (Session.start role s) moments
    have hheard' := h.hears_accepting (Session.start role s') moments'
    have hstart : (Session.start role s').accepting = (Session.start role s).accepting :=
      congrArg (Session.start role) hs
    rw [hstart, hmoments, hheard] at hheard'
    have hnumbers := congrArg (List.map Prod.fst) hheard'
    simp only [List.map_map] at hnumbers
    exact hnumbers.symm

/-! ### Both runs -/

/-- The answers of the link change nothing but the reports of refusals: runs in
    surroundings that are the same with every answer read as an acceptance, through moments
    that are, differ in nothing else. -/
theorem answers_only_logged (hs : s'.accepting = s.accepting)
    (hmoments : moments'.map Moment.accepting = moments.map Moment.accepting) :
    (∀ plan, Indistinct (Publisher.role plan) .publishRejected s s' moments moments') ∧
      ∀ topic, Indistinct (Subscriber.role topic) .subscribeRejected s s' moments moments' := by
  constructor
  · intro plan
    exact (Publisher.deaf plan).indistinct (Publisher.hears plan) (Publisher.acting plan) hs
      hmoments
  · intro topic
    exact (Subscriber.deaf topic).indistinct (Subscriber.hears topic) (Subscriber.acting topic) hs
      hmoments

/-- One run has its first message refused, and the other its second, after a while.  Both
    complete. -/
theorem answers_only_logged_late_refusal :
    let plan : Plan := { topic := "t", count := 2, interval := 0, qos := .exactlyOnce }
    let s : Surroundings := { link := { atOnce := fun n => if n = 1 then some .accepted else none } }
    let s' : Surroundings :=
      { link := { atOnce := fun n => if n = 1 then some (.refused "full") else none } }
    let begun := List.replicate 5 Moment.step
    let ending := List.replicate 3 Moment.step
    let moments := begun ++ .arrival (.resolve (.refused "closed")) :: ending
    let moments' := begun ++ .arrival (.resolve .accepted) :: ending
    s'.accepting = s.accepting ∧ moments'.map Moment.accepting = moments.map Moment.accepting ∧
      ((Publisher.role plan).after s moments).run.phase = .ended (.finished (.completed 2)) ∧
      ((Publisher.role plan).after s' moments').run = ((Publisher.role plan).after s moments).run ∧
      (((Publisher.role plan).after s moments).deedsSince s).rejections =
        [.publishRejected "closed"] ∧
      (((Publisher.role plan).after s' moments').deedsSince s').rejections =
        [.publishRejected "full"] := by
  intro plan s s' begun ending moments moments'
  have hs : s'.accepting = s.accepting := by
    have hatOnce : s'.link.accepting.atOnce = s.link.accepting.atOnce := by
      funext n
      by_cases hfirst : n = 1 <;> simp [s, s', Link.accepting, hfirst]
    simp only [Surroundings.accepting, Link.accepting] at hatOnce ⊢
    rw [hatOnce]
  have hmoments : moments'.map Moment.accepting = moments.map Moment.accepting := by decide
  obtain ⟨hpublisher, -⟩ := answers_only_logged hs hmoments
  have hrun := (hpublisher plan).run_eq
  exact ⟨hs, hmoments, by decide, hrun, by decide, by decide⟩

end BrokerLoad
