/-
  BrokerLoad/Proofs/Flushing.lean
  ===============================
  The two loops that follow every notice by a flush, and what a failing flush does to them.

  A reporter and a subscriber flush in one place each, and only a flush leads them to where
  they have lost their writer (`Role.Flushing`).  So the number of flushes that a run has asked
  for says whether it is lost (`Role.Flushing.flushes_run`).  A notice is flushed once, whether
  or not it put anything into print, so that number is also the number of notices handled, and
  a run whose `n`th flush fails has the transcript of the first `n` notices and stays with it
  (`flushes_each_notice`).
-/
import BrokerLoad.Proofs.Resting
import BrokerLoad.Proofs.Subscriber.Attention
import BrokerLoad.Proofs.Subscriber.Interruption

namespace BrokerLoad

/-- The `n`th flush from here on fails. -/
def Writer.FailsAt (w : Writer) (n : Nat) : Prop :=
  0 < n ∧ w.failingFlush = some (w.flushes + n)

theorem Writer.FailsAt.unique {w : Writer} {m n : Nat} (hm : w.FailsAt m) (hn : w.FailsAt n) :
    m = n :=
  Nat.add_left_cancel (Option.some.inj (hm.2.symm.trans hn.2))

/-! ### Loops that flush in one place -/

/-- The places of a loop that follows every notice by a flush: it is ready for the next notice,
    it has one to flush, it came to the end of its notices, or a flush failed. -/
structure Places (σ : Type) where
  ready : σ
  flushing : σ
  finished : σ
  lost : σ

section

variable {σ : Type} {role : Role σ} {places : Places σ} {s : Surroundings} {x y : Session σ}
  {events : List Stimulus} {effects : List Effect}

/-- A loop that flushes in one place, and is lost only by a flush that fails. -/
structure Role.Flushing (role : Role σ) (places : Places σ) : Prop where
  start_eq : role.start = places.ready
  ready_ne : places.ready ≠ places.lost
  step_flushing : ∀ s, role.activity.step s places.flushing = some (s.flush.1,
    if s.writer.failingFlush = some (s.writer.flushes + 1) then places.lost else places.ready)
  step_lost : ∀ s, role.activity.step s places.lost = none
  step : ∀ {s t p q}, role.activity.step s p = some (t, q) → p ≠ places.flushing →
    q ≠ places.lost ∧ ∃ effects, s.Acts effects t ∧ effects.count .flushed = 0

/-- What the writer counts of a run that did this. -/
structure Flushes (lost : σ) (s : Surroundings) (x : Session σ) (effects : List Effect) :
    Prop where
  effects_eq : x.surroundings.effects = s.effects ++ effects
  failingFlush_eq : x.surroundings.writer.failingFlush = s.writer.failingFlush
  flushes_eq : x.surroundings.writer.flushes = s.writer.flushes + effects.count .flushed
  lost_iff : x.run = lost ↔ s.writer.FailsAt (effects.count .flushed)
  le_of_fails : ∀ n, s.writer.FailsAt n → effects.count .flushed ≤ n

theorem Role.Flushing.flushes_step (h : role.Flushing places)
    (hx : Flushes places.lost s x effects) {t : Surroundings} {q : σ}
    (hstep : role.activity.step x.surroundings x.run = some (t, q)) :
    ∃ more, Flushes places.lost s { surroundings := t, run := q } (effects ++ more) := by
  -- a lost run takes no step, so no flush has failed so far
  have hgoing : ¬ s.writer.FailsAt (effects.count .flushed) := by
    intro hfails
    rw [hx.lost_iff.mpr hfails, h.step_lost] at hstep
    cases hstep
  by_cases hflushing : x.run = places.flushing
  · rw [hflushing, h.step_flushing] at hstep
    obtain ⟨rfl, rfl⟩ := Prod.mk.inj (Option.some.inj hstep)
    have hacts := x.surroundings.acts_flush
    have hcount : (effects ++ [Effect.flushed]).count .flushed = effects.count .flushed + 1 := by
      rw [List.count_append]
      rfl
    have hfails : x.surroundings.writer.failingFlush = some (x.surroundings.writer.flushes + 1) ↔
        s.writer.FailsAt (effects.count .flushed + 1) := by
      rw [hx.failingFlush_eq, hx.flushes_eq, Nat.add_assoc]
      exact ⟨fun hfailing => ⟨Nat.succ_pos _, hfailing⟩, fun hfailing => hfailing.2⟩
    refine ⟨[.flushed], ?_, ?_, ?_, ?_, ?_⟩
    · rw [hacts.effects_eq, hx.effects_eq, List.append_assoc]
    · exact hacts.failingFlush_eq.trans hx.failingFlush_eq
    · rw [hcount, hacts.flushes_eq, hx.flushes_eq]
      rfl
    · rw [hcount, ← hfails]
      by_cases hfailing :
          x.surroundings.writer.failingFlush = some (x.surroundings.writer.flushes + 1)
      · simp [hfailing]
      · simp [hfailing, h.ready_ne]
    · intro n hn
      rw [hcount]
      -- the run was not lost yet, so that this is a later flush
      have hne : effects.count .flushed ≠ n := by
        rintro rfl
        exact hgoing hn
      exact Nat.lt_of_le_of_ne (hx.le_of_fails n hn) hne
  · obtain ⟨hq, more, hacts, hnone⟩ := h.step hstep hflushing
    have hcount : (effects ++ more).count .flushed = effects.count .flushed := by
      rw [List.count_append, hnone, Nat.add_zero]
    refine ⟨more, ?_, ?_, ?_, ?_, ?_⟩
    · rw [hacts.effects_eq, hx.effects_eq, List.append_assoc]
    · exact hacts.failingFlush_eq.trans hx.failingFlush_eq
    · rw [hcount, hacts.flushes_eq, hx.flushes_eq, hnone, Nat.add_zero]
    · rw [hcount]
      exact ⟨fun hlost => absurd hlost hq, fun hfails => absurd hfails hgoing⟩
    · rw [hcount]
      exact hx.le_of_fails

theorem Role.Flushing.flushes_run (h : role.Flushing places)
    (hrun : role.Run (Session.start role s) events x) (hrestart : Stimulus.restart ∉ events) :
    (x.run = places.lost ↔ s.writer.FailsAt (x.deedsSince s).flushes) ∧
      ∀ n, s.writer.FailsAt n → (x.deedsSince s).flushes ≤ n := by
  have hstart : Flushes places.lost s (Session.start role s) [] := by
    refine ⟨(List.append_nil _).symm, rfl, rfl, ?_, fun n _ => Nat.zero_le n⟩
    constructor
    · intro hlost
      exact absurd (h.start_eq.symm.trans hlost) h.ready_ne
    · rintro ⟨hpos, -⟩
      exact absurd hpos (Nat.lt_irrefl 0)
  have hkept := hrun.invariant hrestart
    (P := fun y => ∃ effects, Flushes places.lost s y effects) ⟨[], hstart⟩ ?_ ?_
  · obtain ⟨effects, hflushes⟩ := hkept
    rw [Trace.flushes_eq_count, Session.effects_deedsSince hflushes.effects_eq]
    exact ⟨hflushes.lost_iff, hflushes.le_of_fails⟩
  · rintro z w stimulus - ⟨effects, hz⟩ hchanged
    refine ⟨effects, hchanged.effects_eq.trans hz.effects_eq, ?_, ?_, ?_, hz.le_of_fails⟩
    · rw [hchanged.writer_eq]
      exact hz.failingFlush_eq
    · rw [hchanged.writer_eq]
      exact hz.flushes_eq
    · rw [hchanged.run_eq]
      exact hz.lost_iff
  · rintro z t q ⟨effects, hz⟩ hstep
    obtain ⟨more, hflushes⟩ := h.flushes_step hz hstep
    exact ⟨_, hflushes⟩

/-! ### What such a loop has to show -/

/-- What a run that received these notices has done in `x`, if `Transcript` says what it does
    for the notices that it takes. -/
structure Handles (Transcript : List Notice → Prop) (places : Places σ) (s : Surroundings)
    (received : List Notice) (x : Session σ) : Prop where
  transcript : Transcript (x.deedsSince s).taken
  received_eq : (x.deedsSince s).taken ++ x.surroundings.inbox.unread = received
  of_finished : x.run = places.finished →
    x.surroundings.inbox.unread = [] ∧ x.surroundings.inbox.isOpen = false
  lost_iff : x.run = places.lost ↔ s.writer.FailsAt (x.deedsSince s).flushes
  /-- The notice whose flush fails is the last one taken. -/
  le_of_fails : ∀ n, s.writer.FailsAt n → (x.deedsSince s).taken.length ≤ n

/-- Where such a run has come to rest. -/
structure ComesToRest (Transcript : List Notice → Prop) (places : Places σ) (s : Surroundings)
    (received : List Notice) (y : Session σ) : Prop where
  of_fails : ∀ n ≤ received.length, s.writer.FailsAt n →
    y.run = places.lost ∧ Transcript (received.take n)
  of_holds : (∀ n ≤ received.length, ¬ s.writer.FailsAt n) → Transcript received ∧
    y.run = if y.surroundings.inbox.isOpen then places.ready else places.finished

variable {Transcript : List Notice → Prop} {received : List Notice}

theorem Role.Flushing.handles (h : role.Flushing places) (hacting : role.Acting)
    (hrun : role.Run (Session.start role s) events x) (hrestart : Stimulus.restart ∉ events)
    (htranscript : Transcript (x.deedsSince s).taken) {owed : Nat}
    (hflushes : (x.deedsSince s).flushes + owed = (x.deedsSince s).taken.length)
    (howed : owed ≤ 1) (hlost : x.run = places.lost → owed = 0)
    (hfinished : x.run = places.finished →
      x.surroundings.inbox.unread = [] ∧ x.surroundings.inbox.isOpen = false) :
    Handles Transcript places s (s.inbox.received events) x := by
  obtain ⟨hiff, hle⟩ := h.flushes_run hrun hrestart
  refine ⟨htranscript, hrun.taken_append_unread hacting, hfinished, hiff, ?_⟩
  intro n hn
  rcases Nat.lt_or_eq_of_le (hle n hn) with hlt | rfl
  · omega
  · have hnone := hlost (hiff.mpr hn)
    omega

/-- A run that rests has taken all notices, or it is lost. -/
theorem Handles.comesToRest (h : Handles Transcript places s received y)
    (hflushes : (y.deedsSince s).flushes = (y.deedsSince s).taken.length)
    (hrest : (y.run = places.ready ∧ y.surroundings.inbox.unread = [] ∧
      y.surroundings.inbox.isOpen = true) ∨ y.run = places.finished ∨ y.run = places.lost) :
    ComesToRest Transcript places s received y := by
  have hreceived := h.received_eq
  by_cases hlost : y.run = places.lost
  · -- the last flush is the one that fails, so the notices taken are just those before it
    have hfails := h.lost_iff.mp hlost
    rw [hflushes] at hfails
    constructor
    · intro n _ hn
      refine ⟨hlost, ?_⟩
      rw [hn.unique hfails, ← hreceived, List.take_left]
      exact h.transcript
    · intro hholds
      have hle : (y.deedsSince s).taken.length ≤ received.length := by
        rw [← hreceived, List.length_append]
        exact Nat.le_add_right _ _
      exact absurd hfails (hholds _ hle)
  · have hdrained : y.surroundings.inbox.unread = [] ∧
        y.run = if y.surroundings.inbox.isOpen then places.ready else places.finished := by
      rcases hrest with ⟨hready, hunread, hopen⟩ | hfinished | habsurd
      · exact ⟨hunread, by rw [hready, hopen, if_pos rfl]⟩
      · obtain ⟨hunread, hclosed⟩ := h.of_finished hfinished
        exact ⟨hunread, by rw [hfinished, hclosed, if_neg Bool.false_ne_true]⟩
      · exact absurd habsurd hlost
    rw [hdrained.1, List.append_nil] at hreceived
    constructor
    · intro n hle hn
      -- all flushes up to the last notice were made, so the failing one is among them
      have hsame : n = (y.deedsSince s).flushes := by
        have hge := h.le_of_fails n hn
        rw [hreceived] at hge
        rw [hflushes, hreceived]
        exact Nat.le_antisymm hle hge
      exact absurd (h.lost_iff.mpr (hsame ▸ hn)) hlost
    · intro _
      exact ⟨hreceived ▸ h.transcript, hdrained.2⟩

/-- A loop that a full writer has stopped rests. -/
theorem Session.ne_of_resume_ne {p : σ} (hrest : ∀ s, role.activity.step s p = none)
    (h : (x.resume role).run ≠ p) : x.run ≠ p := by
  rintro rfl
  rw [resume_of_rests (hrest x.surroundings)] at h
  exact h rfl

end

/-! ### The two loops -/

namespace Reporter

variable {s : Surroundings} {x : Session Reporter} {events : List Stimulus}

def places : Places Reporter where
  ready := .listening
  flushing := .flushing
  finished := .ended (.finished ())
  lost := .ended (.failed .flushFailed)

theorem flushes : role.Flushing places where
  start_eq := rfl
  ready_ne := by decide
  step_flushing s := by
    change some (unlessFailed .listening s.flush) = _
    by_cases hfailing : s.writer.failingFlush = some (s.writer.flushes + 1) <;>
      simp [Surroundings.flush, unlessFailed, places, hfailing]
  step_lost _ := rfl
  step {s t p q} hstep hp := by
    cases move_of_step hstep with
    | print notice hacts =>
      refine ⟨by decide, _, hacts, ?_⟩
      simp
    | cut notice octets _ _ _ hacts =>
      refine ⟨by decide, _, hacts, ?_⟩
      simp
    | finish _ _ => exact ⟨by decide, [], .refl s, rfl⟩
    | flush _ => exact absurd rfl hp
    | lose _ _ => exact absurd rfl hp

theorem handles (h : role.Run (Session.start role s) events x)
    (hrestart : Stimulus.restart ∉ events) (hwhole : x.run ≠ .ended (.failed .full)) :
    Handles (Transcript s x) places s (s.inbox.received events) x := by
  have htranscript := transcript_of_whole h hrestart hwhole
  refine flushes.handles acting h hrestart htranscript htranscript.flushes ?_ ?_ ?_
  · cases x.run <;> simp [owed]
  · intro hlost
    rw [hlost]
    rfl
  · exact drained_of_finished h hrestart

theorem comesToRest (h : role.Run (Session.start role s) events x)
    (hrestart : Stimulus.restart ∉ events) (hwhole : x.run ≠ .ended (.failed .full))
    (hrests : role.Rests x) :
    ComesToRest (Transcript s x) places s (s.inbox.received events) x := by
  have htranscript := transcript_of_whole h hrestart hwhole
  apply (handles h hrestart hwhole).comesToRest
  · rw [← htranscript.flushes]
    rcases rest_cases hrests with ⟨hrun, -⟩ | ⟨result, hrun⟩ <;> rw [hrun] <;> rfl
  · rcases rest_cases hrests with hready | ⟨⟨⟩ | _ | _, hrun⟩
    · exact .inl hready
    · exact .inr (.inl hrun)
    · exact absurd hrun hwhole
    · exact .inr (.inr hrun)

end Reporter

namespace Subscriber

variable {topic : String} {s : Surroundings} {x : Session Subscriber} {events : List Stimulus}

def places : Places Subscriber where
  ready := .listening
  flushing := .flushing
  finished := .ended (.finished .linkClosed)
  lost := .ended (.failed .flushFailed)

theorem flushes (topic : String) : (role topic).Flushing places where
  start_eq := rfl
  ready_ne := by decide
  step_flushing s := by
    change some (afterFlush s.flush) = _
    by_cases hfailing : s.writer.failingFlush = some (s.writer.flushes + 1) <;>
      simp [Surroundings.flush, afterFlush, places, hfailing]
  step_lost _ := rfl
  step {s t p q} hstep hp := by
    cases move_of_step hstep with
    | interrupt _ hacts => exact ⟨by decide, _, hacts, rfl⟩
    | exhaust _ _ _ => exact ⟨by decide, [], .refl s, rfl⟩
    | handle notice _ _ hacts =>
      refine ⟨by decide, _, hacts, ?_⟩
      simp [opening]
    | cut notice octets _ _ _ _ hacts =>
      refine ⟨by decide, _, hacts, ?_⟩
      simp
    | await notice call _ _ _ hacts =>
      refine ⟨by decide, _, hacts, ?_⟩
      simp [opening]
    | subscribe notice call answer _ _ _ hacts =>
      refine ⟨by decide, _, hacts, ?_⟩
      simp [opening]
    | conclude answer _ hacts => exact ⟨by decide, _, hacts, Effect.count_flushed_complaint _ answer⟩
    | flush _ => exact absurd rfl hp
    | lose _ _ => exact absurd rfl hp

theorem handles (h : (role topic).Run (Session.start (role topic) s) events x)
    (hrestart : Stimulus.restart ∉ events) (hwhole : x.run ≠ .ended (.failed .full)) :
    Handles (Transcript topic s x) places s (s.inbox.received events) x := by
  have htranscript := transcript_of_whole h hrestart hwhole
  refine (flushes topic).handles (acting topic) h hrestart htranscript htranscript.flushes ?_ ?_ ?_
  · cases x.run <;> simp [owed]
  · intro hlost
    rw [hlost]
    rfl
  · exact closed_of_linkClosed h hrestart

/-- Nobody interrupts a run whose signal is down and set to nothing. -/
theorem not_interrupted_of_quiet (h : (role topic).Run (Session.start (role topic) s) events x)
    (hrestart : Stimulus.restart ∉ events) (hshutdown : Stimulus.shutdown ∉ events)
    (hquiet : s.signal = {}) : x.run ≠ .ended (.finished .interrupted) := by
  have hdown := h.invariant hrestart (P := fun y => y.surroundings.signal = {}) hquiet ?_ ?_
  · intro hinterrupted
    have hup := raised_of_interrupted h hrestart hinterrupted
    rw [hdown] at hup
    cases hup
  · intro z w stimulus hmem hz hchanged
    have hraised := hchanged.raised_eq fun hsame => hshutdown (hsame ▸ hmem)
    rw [← hz, Signal.mk.injEq]
    exact ⟨hraised, hchanged.onOctets_eq, hchanged.onCall_eq⟩
  · intro z t q hz hstep
    obtain ⟨effects, hacts⟩ := acting topic hstep
    have hraised := hacts.quiet (by rw [hz]) (by rw [hz])
    rw [← hz, Signal.mk.injEq]
    exact ⟨hraised, hacts.onOctets_eq, hacts.onCall_eq⟩

theorem comesToRest (h : (role topic).Run (Session.start (role topic) s) events x)
    (hrestart : Stimulus.restart ∉ events) (hwhole : x.run ≠ .ended (.failed .full))
    (hgoing : x.run ≠ .ended (.finished .interrupted)) (hanswered : x.run ≠ .subscribing)
    (hrests : (role topic).Rests x) :
    ComesToRest (Transcript topic s x) places s (s.inbox.received events) x := by
  have htranscript := transcript_of_whole h hrestart hwhole
  apply (handles h hrestart hwhole).comesToRest
  · rw [← htranscript.flushes]
    rcases rest_cases hrests with ⟨hrun, -⟩ | ⟨hrun, -⟩ | ⟨result, hrun⟩
    · rw [hrun]
      rfl
    · exact absurd hrun hanswered
    · rw [hrun]
      rfl
  · rcases rest_cases hrests with ⟨hrun, -, hidle⟩ | ⟨hrun, -⟩ | ⟨(_ | _) | _ | _, hrun⟩
    · exact .inl ⟨hrun, hidle⟩
    · exact absurd hrun hanswered
    · exact absurd hrun hgoing
    · exact .inr (.inl hrun)
    · exact absurd hrun hwhole
    · exact .inr (.inr hrun)

/-- While no call waits, the answer to every call that was made has been taken. -/
theorem calls_answered (topic : String) (s : Surroundings) {moments : List Moment}
    (hrestart : .arrival .restart ∉ moments)
    (hanswered : ((role topic).after s moments).run ≠ .subscribing) :
    ((Session.start (role topic) s).hears (role topic) moments).map (·.1) =
      List.range' (s.link.made + 1) (((role topic).after s moments).deedsSince s).calls.length := by
  obtain ⟨effects, heffects, hattends⟩ :=
    attends_live topic (Session.start (role topic) s) hrestart
  have hsince : (((role topic).after s moments).deedsSince s).effects = effects :=
    Session.effects_deedsSince heffects
  have hnone : unanswered ((role topic).after s moments).surroundings
      ((role topic).after s moments).run = [] := if_neg hanswered
  have hall := hattends.answered_eq
  rw [Trace.calls_eq_filterMap, hsince]
  exact ((List.append_nil _).symm.trans (congrArg (_ ++ ·) hnone.symm)).trans hall.symm

end Subscriber

/-- Let `x` be any state of a run that is not abandoned, and `y` where it comes to rest if
    nothing else happens.  The writer is not full in `y`.

    In `x` the loop has done exactly what the notices call for that it has taken, a flush for
    each of them included, and these, with the unread ones after them, are the notices received.
    It has finished only if none is left and none can come, and it is lost if the last flush
    asked for is the one that fails.

    In `y` it is lost with the transcript of the first `n` notices, if the `n`th flush fails and
    that many have come.  Otherwise it has handled them all, and it has finished if and only if
    its inbox is closed.  A subscriber gets there if no signal interrupts it and no call waits;
    while none waits, all calls that it has made are answered. -/
theorem flushes_each_notice (s : Surroundings) {moments : List Moment}
    (hrestart : .arrival .restart ∉ moments) :
    let received := s.inbox.received (moments.filterMap Moment.stimulus?)
    (let x := Reporter.role.after s moments
      let y := x.resume Reporter.role
      y.run ≠ .ended (.failed .full) →
        Handles (Reporter.Transcript s x) Reporter.places s received x ∧
          ComesToRest (Reporter.Transcript s y) Reporter.places s received y) ∧
      ∀ topic,
        let role := Subscriber.role topic
        let x := role.after s moments
        let y := x.resume role
        y.run ≠ .ended (.failed .full) →
          Handles (Subscriber.Transcript topic s x) Subscriber.places s received x ∧
            (x.run ≠ .subscribing → ((Session.start role s).hears role moments).map (·.1) =
              List.range' (s.link.made + 1) (x.deedsSince s).calls.length) ∧
            (s.signal = {} → .arrival .shutdown ∉ moments → y.run ≠ .subscribing →
              ComesToRest (Subscriber.Transcript topic s y) Subscriber.places s received y) := by
  intro received
  have hstimuli : ∀ stimulus, .arrival stimulus ∉ moments →
      stimulus ∉ moments.filterMap Moment.stimulus? := by
    intro stimulus habsent hmem
    obtain ⟨moment, hmoment, hsome⟩ := List.mem_filterMap.mp hmem
    cases moment with
    | arrival other => exact absurd (Option.some.inj hsome ▸ hmoment) habsent
    | step => cases hsome
  have hkept := hstimuli _ hrestart
  constructor
  · intro x y hwhole
    have hrun := Session.run_live Reporter.role (Session.start Reporter.role s) moments
    have hwhole' : x.run ≠ .ended (.failed .full) := Session.ne_of_resume_ne (fun _ => rfl) hwhole
    exact ⟨Reporter.handles hrun hkept hwhole',
      Reporter.comesToRest hrun.resume hkept hwhole (Session.rests_resume _ x)⟩
  · intro topic role x y hwhole
    have hrun := Session.run_live role (Session.start role s) moments
    have hwhole' : x.run ≠ .ended (.failed .full) := Session.ne_of_resume_ne (fun _ => rfl) hwhole
    refine ⟨Subscriber.handles hrun hkept hwhole', Subscriber.calls_answered topic s hrestart, ?_⟩
    intro hquiet hshutdown hanswered
    have hgoing := Subscriber.not_interrupted_of_quiet hrun.resume hkept
      (hstimuli _ hshutdown) hquiet
    exact Subscriber.comesToRest hrun.resume hkept hwhole hgoing hanswered
      (Session.rests_resume _ x)

/-- Five notices, the fourth flush fails.  The subscribe call is refused late, together with the
    fifth notice and the close. -/
theorem flushes_each_notice_fourth_lost :
    let s : Surroundings := { link := .deferred, writer := { failingFlush := some 4 } }
    let notices : List Notice := [.received "a" [104], .delivered 7, .connected .notAuthorized,
      .connected .success, .delivered 8]
    let moments : List Moment := (notices.take 4).map (.arrival ∘ .notice) ++
      List.replicate 7 .step ++ [.arrival (.notice (.delivered 8)), .arrival .close,
        .arrival (.resolve (.refused "late")), .step]
    let role := Subscriber.role "t"
    let y := (Reporter.role.after s moments).resume Reporter.role
    let z := (role.after s moments).resume role
    s.inbox.received (moments.filterMap Moment.stimulus?) = notices ∧
      y.run = .ended (.failed .flushFailed) ∧
      (y.deedsSince s).output = Octets.ofText
        ("message successfully sent to topic with ID 7\n" ++
          "Connected successfully to localhost:1883 with result code 5\n" ++
          "Connected successfully to localhost:1883 with result code 0\n") ∧
      z.run = .ended (.failed .flushFailed) ∧
      (z.deedsSince s).output = (notices.take 4).flatMap (Subscriber.text "t") ∧
      (z.deedsSince s).calls = [.subscribe "t" .atMostOnce] ∧
      ((Session.start role s).hears role moments).map (·.1) = [1] := by
  intro s notices moments role y z
  have hreceived : s.inbox.received (moments.filterMap Moment.stimulus?) = notices := by decide
  have hfails : s.writer.FailsAt 4 := ⟨by decide, rfl⟩
  have hrestart : .arrival .restart ∉ moments := by decide
  obtain ⟨hreporter, hsubscriber⟩ := flushes_each_notice s hrestart
  obtain ⟨-, hy⟩ := hreporter (by decide)
  obtain ⟨-, hanswered, hz⟩ := hsubscriber "t" (by decide)
  have hz := hz rfl (by decide) (by decide)
  rw [hreceived] at hy hz
  obtain ⟨hlost, hprinted⟩ := hy.of_fails 4 (by decide) hfails
  obtain ⟨hlost', htranscript⟩ := hz.of_fails 4 (by decide) hfails
  refine ⟨hreceived, hlost, ?_, hlost', htranscript.output, ?_, ?_⟩
  · rw [hprinted.output]
    decide +kernel
  · rw [htranscript.calls]
    decide
  · rw [hanswered (by decide)]
    decide

end BrokerLoad
